import CloudClient.Proofs.Token.Lineage

/-!
Where access tokens come from. A token is in the cache, is about to get there or is about to be sent
only when the server has granted it before, in a reply to a request for one; so no request carries
any other. Unlike the laws of lineage this holds also when the server grants a token twice.
-/

namespace CloudClient

open Http (Request Response)

/-- The reply to a request for a token: a success, which brings this access token. -/
def Occurrence.Grants (c : Config) (o : Occurrence) (accessToken : String) : Prop :=
  ∃ g response grant, o.deed = .ends (.send (Grant.request c g)) (.ok response) ∧
    response.isSuccess = true ∧ TokenResponse.codec.read response.body = .ok grant ∧
    grant.accessToken = accessToken

/-- An access token that the server has granted so far. -/
structure Chronicle.Granted (c : Config) (h : Chronicle) (accessToken : String) : Prop where
  nonempty : accessToken ≠ ""
  source : ∃ o ∈ h, o.Grants c accessToken

theorem TokenResponse.ofHttp_eq_ok_iff {r : Response} {t : TokenResponse} :
    ofHttp r = .ok t ↔
      r.isSuccess = true ∧ codec.read r.body = .ok t ∧ t.accessToken ≠ "" := by
  unfold ofHttp
  split
  · rename_i hs
    cases hread : codec.read r.body with
    | error p => simp
    | ok t' =>
      have hempty : t'.accessToken.isEmpty = true ↔ t'.accessToken = "" := String.isEmpty_iff
      dsimp only
      split
      · rename_i he
        refine iff_of_false nofun ?_
        rintro ⟨_, ⟨⟩, hne⟩
        exact hne (hempty.1 he)
      · rename_i he
        constructor
        · rintro ⟨⟩
          exact ⟨hs, rfl, fun h => he (hempty.2 h)⟩
        · rintro ⟨_, ⟨⟩, _⟩
          rfl
  · rename_i hs
    exact iff_of_false nofun fun h => hs h.1

namespace Chronicle

variable {c : Config} {h : Chronicle} {o : Occurrence} {accessToken : String}

theorem Granted.cons (H : h.Granted c accessToken) (o : Occurrence) :
    Granted c (o :: h) accessToken := by
  obtain ⟨hne, o', ho', hgrants⟩ := H
  exact ⟨hne, o', List.mem_cons_of_mem o ho', hgrants⟩

/-- A token in the reply to a request of the cache is granted by it. -/
theorem granted_of_issues {g : Grant} {x : Reply}
    (ho : o.deed = .ends (.send (Grant.request c g)) x) (ha : accessToken ∈ o.deed.issues) :
    Granted c (o :: h) accessToken := by
  rw [ho, Deed.issues, if_pos (asksForToken_grant c g)] at ha
  obtain ⟨t, ht, rfl⟩ := List.mem_map.1 ha
  cases x with
  | error f => cases ht
  | ok response =>
    cases hread : TokenResponse.ofHttp response with
    | error fault =>
      rw [Account.tokenIn?, hread] at ht
      cases ht
    | ok t' =>
      rw [Account.tokenIn?, hread] at ht
      obtain rfl : t = t' := List.mem_singleton.1 ht
      obtain ⟨hs, hbody, hne⟩ := TokenResponse.ofHttp_eq_ok_iff.1 hread
      exact ⟨hne, o, List.mem_cons_self, g, response, t, ho, hs, hbody, rfl⟩

end Chronicle

/-- A request asks for a token in one of the two ways, or carries one that has been granted. -/
def Attested (c : Config) (o : Occurrence) (before : Chronicle) : Prop :=
  ∀ r, o.deed = .starts (.send r) →
    (∃ g, r = Grant.request c g) ∨ ∃ a, r.bearer? = some a ∧ before.Granted c a

/-- All tokens that there are have been granted. -/
structure Provenance (c : Config) (cache : Option Token) (h : Chronicle) : Prop where
  cached : ∀ z, cache = some z → h.Granted c z.accessToken
  pending : ∀ i a, (h.account i).Pending a → h.Granted c a
  gave : ∀ i z, (Bearings.conduct.state i h).2.gave = some (some z) → h.Granted c z.accessToken
  sent : h.Every (Attested c)

namespace Provenance

variable {σ : Type} {c : Config} {w : World σ} {cache : Option Token} {now i : Nat}
  {h : Chronicle} {d : Deed}

theorem nil (c : Config) : Provenance c none [] where
  cached _ hz := nomatch hz
  pending _ _ ha := absurd ha (Account.not_pending rfl rfl)
  gave _ _ hz := nomatch hz
  sent := Chronicle.every_nil _

/-- Deeds after which all tokens that are new have been granted. -/
theorem cons (H : Provenance c cache h) {cache' : Option Token}
    (hcached : ∀ z, cache' = some z → h.Granted c z.accessToken)
    (hissues : ∀ a ∈ d.issues, Chronicle.Granted c (⟨i, now, cache, d⟩ :: h) a)
    (hgave : ∀ z, ((Bearings.conduct.state i h).2.step d).gave = some (some z) →
      h.Granted c z.accessToken)
    (hsent : Attested c ⟨i, now, cache, d⟩ h) :
    Provenance c cache' (⟨i, now, cache, d⟩ :: h) := by
  refine ⟨fun z hz => (hcached z hz).cons _, ?_, ?_, Chronicle.every_cons.2 ⟨hsent, H.sent⟩⟩
  · refine Chronicle.forall_account_cons (o := ⟨i, now, cache, d⟩)
      (P := fun _ a => ∀ t, a.Pending t → Chronicle.Granted c _ t)
      (fun j t ht => (H.pending j t ht).cons _) fun t ht => ?_
    rcases Account.pending_of_step ht with hnew | hold
    · exact hissues t hnew
    · exact (H.pending i t hold).cons _
  · exact Bearings.conduct.forall_state_cons (o := ⟨i, now, cache, d⟩)
      (P := fun _ s => ∀ z, s.2.gave = some (some z) → Chronicle.Granted c _ z.accessToken)
      (fun j z hz => (H.gave j z hz).cons _) fun z hz => (hgave z hz).cons _

theorem attested_of_ne {o : Occurrence} (ho : ∀ r, o.deed ≠ .starts (.send r)) :
    Attested c o h :=
  fun r hd => absurd hd (ho r)

theorem start (H : Provenance c cache h) {e : Effect}
    (hask : (Terms.free.conduct c).Permits ((Terms.free.conduct c).state i h) e)
    (hsend : Bearings.conduct.Permits (Bearings.conduct.state i h) e) :
    Provenance c cache (⟨i, now, cache, .starts e⟩ :: h) := by
  refine H.cons H.cached (fun _ ha => by cases ha) (H.gave i) ?_
  rintro r ⟨⟩
  cases hr : r.bearer? with
  | none =>
    have hasks : r.asksForToken = true := by rw [Request.asksForToken, hr]; rfl
    obtain ⟨_, g, hm⟩ := hask.2 hasks
    exact .inl ⟨g, hm.request⟩
  | some a =>
    -- the token is the one that the task has left in the cache
    obtain ⟨_, z, hgave, rfl⟩ := hsend.2 a hr
    exact .inr ⟨_, rfl, H.gave i z hgave⟩

/-- What may be left in the cache is there, or has been obtained. -/
theorem granted_of_release (H : Provenance c cache h) (hs : h.Sole cache) {y : Option Token}
    {n : Notes} (hm : Terms.free.MayRelease (h.account i) n y) {z : Token} (hz : y = some z) :
    h.Granted c z.accessToken := by
  cases hm with
  | same hheld _ => exact H.cached z ((hs i y hheld).1.symm.trans hz)
  | new hobtained =>
    cases hz
    exact H.pending i _ (.inr ⟨z, hobtained, rfl⟩)
  | dropped _ _ _ => cases hz

theorem finish (H : Provenance c cache h) (hs : h.Sole cache) {e : Effect} {x : e.Answer}
    {s : Account × Notes}
    (hs₀ : (Terms.free.conduct c).state i h = (Terms.free.conduct c).step s (.starts e))
    (hask : (Terms.free.conduct c).Permits s e) :
    Provenance c (e.leaving cache) (⟨i, now, cache, .ends e x⟩ :: h) := by
  have haccount : h.account i = s.1.step (.starts e) := by
    rw [← Conduct.state_fst (Terms.free.conduct c), hs₀]
    rfl
  cases e with
  | release y =>
    have hgranted (z : Token) (hz : y = some z) : h.Granted c z.accessToken := by
      refine H.granted_of_release hs (i := i) (n := s.2) ?_ hz
      rw [haccount]
      exact hask.2
    refine H.cons hgranted (fun _ ha => by cases ha) (fun z hz => ?_) (attested_of_ne (by simp))
    exact hgranted z (Option.some.inj hz)
  | send r =>
    have hkept (b : Bearings) : (b.step (.ends (.send r) x)).gave = b.gave := by
      rw [Bearings.step]
      split <;> rfl
    refine H.cons H.cached (fun a ha => ?_) (fun z hz => ?_) (attested_of_ne (by simp))
    · by_cases hr : r.asksForToken = true
      · obtain ⟨_, g, hm⟩ := hask.2 hr
        obtain rfl := hm.request
        exact Chronicle.granted_of_issues rfl ha
      · rw [Deed.issues, if_neg hr] at ha
        cases ha
    · exact H.gave i z ((hkept _).symm.trans hz)
  | _ => exact H.cons H.cached (fun _ ha => by cases ha) (H.gave i) (attested_of_ne (by simp))

end Provenance

theorem upholds_provenance {σ : Type} (c : Config) (w : World σ) (cancels : Prop)
    (A : Chronicle → Prop) :
    ((Terms.free.conduct c).both Bearings.conduct).Upholds w cancels A
      fun cache _ h => Provenance c cache h := by
  refine Conduct.upholds_both (fun H _ hask hsend _ => H.start hask hsend)
    (fun {_ _ _ _ e _ _ _} H hs hs₀ hask _ _ _ _ _ => ⟨⟨?_, trivial⟩, H.finish hs hs₀ hask⟩)
    fun H _ => ?_
  · cases e <;> trivial
  · exact H.cons H.cached (fun _ ha => by cases ha) (H.gave _) (Provenance.attested_of_ne (by simp))

end CloudClient
