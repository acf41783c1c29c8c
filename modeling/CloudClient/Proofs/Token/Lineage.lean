import CloudClient.Proofs.Program.Both
import CloudClient.Proofs.Token.Bearing

/-!
The way of access tokens from the replies that issue them into the cache and out of it. A token is
left in the cache for the first time by the task that has obtained it, and later only by tasks that
have found it there. So, when no token is issued twice, one that has gone does not come back, and
one that is there has come after all that were there before.
-/

namespace CloudClient

open Http (Request)

/-! ### What deeds do with tokens -/

namespace Deed

/-- The access token in the reply to a request for one. -/
def issues : Deed → List String
  | .ends (.send r) x =>
    if r.asksForToken then (Account.tokenIn? x).toList.map (·.accessToken) else []
  | _ => []

/-- The access token that is left in the cache when it is given back. -/
def puts : Deed → List String
  | .ends (.release x) _ => x.toList.map (·.accessToken)
  | _ => []

end Deed

/-- An exchange is complete: the task leaves in the cache the token that it has obtained. -/
def Occurrence.Completes (o : Occurrence) (before : Chronicle) (accessToken : String) : Prop :=
  ∃ z, o.deed = .ends (.release (some z)) () ∧ z.accessToken = accessToken ∧
    (before.account o.task).obtained = some z

namespace Chronicle

variable {first : Option Token} {h : Chronicle} {o : Occurrence}

/-- The access tokens that there are: the one that is in the cache at first, and all that came in
replies since. -/
def issued (first : Option Token) : Chronicle → List String
  | [] => first.toList.map (·.accessToken)
  | o :: h => o.deed.issues ++ issued first h

/-- The access tokens that have been in the cache. -/
def left (first : Option Token) : Chronicle → List String
  | [] => first.toList.map (·.accessToken)
  | o :: h => o.deed.puts ++ left first h

/-- A request of this task with this token has been rejected. -/
def Rejected (h : Chronicle) (i : Nat) (accessToken : String) : Prop :=
  ∃ o ∈ h, o.task = i ∧ o.deed.rejects? = some accessToken

/-- One token has come into the cache by an exchange that was completed when there was the other
one. -/
def Newer (first : Option Token) (h : Chronicle) (accessToken older : String) : Prop :=
  ∃ (o : Occurrence) (before : Chronicle), o :: before <:+ h ∧ o.Completes before accessToken ∧
    older ∈ before.issued first

instance (h : Chronicle) (i : Nat) (accessToken : String) :
    Decidable (h.Rejected i accessToken) :=
  inferInstanceAs (Decidable (∃ o ∈ h, o.task = i ∧ o.deed.rejects? = some accessToken))

theorem issued_cons_of_nil (ho : o.deed.issues = []) : issued first (o :: h) = h.issued first := by
  rw [issued, ho, List.nil_append]

theorem left_cons_of_nil (ho : o.deed.puts = []) : left first (o :: h) = h.left first := by
  rw [left, ho, List.nil_append]

theorem mem_issued_cons {a : String} (ha : a ∈ h.issued first) : a ∈ issued first (o :: h) :=
  List.mem_append_right _ ha

theorem mem_left_cons {a : String} (ha : a ∈ h.left first) : a ∈ left first (o :: h) :=
  List.mem_append_right _ ha

theorem rejected_cons_iff {i : Nat} {accessToken : String} :
    Rejected (o :: h) i accessToken ↔
      o.task = i ∧ o.deed.rejects? = some accessToken ∨ h.Rejected i accessToken := by
  simp [Rejected]

theorem Newer.cons {accessToken older : String} (H : h.Newer first accessToken older)
    (o : Occurrence) : Newer first (o :: h) accessToken older := by
  obtain ⟨o', before, hsuffix, hcompletes, holder⟩ := H
  exact ⟨o', before, hsuffix.trans (List.suffix_cons o h), hcompletes, holder⟩

end Chronicle

/-- A token that a task has asked for and not left in the cache yet. -/
def Account.Pending (a : Account) (accessToken : String) : Prop :=
  (∃ g, a.answered = some (some g) ∧ g.accessToken = accessToken) ∨
    ∃ z, a.obtained = some z ∧ z.accessToken = accessToken

namespace Account

variable {a : Account} {accessToken : String}

theorem not_pending (ha : a.answered = none) (ho : a.obtained = none) :
    ¬ a.Pending accessToken := by
  rintro (⟨g, hg, _⟩ | ⟨z, hz, _⟩)
  · rw [ha] at hg
    cases hg
  · rw [ho] at hz
    cases hz

/-- Only a reply brings a token. -/
theorem pending_of_step {d : Deed} (H : (a.step d).Pending accessToken) :
    accessToken ∈ d.issues ∨ a.Pending accessToken := by
  cases d with
  | starts e =>
    cases e with
    | send r =>
      simp only [step] at H
      split at H
      · exact .inr (.inr (H.resolve_left (by rintro ⟨_, ⟨⟩, _⟩)))
      · exact .inr H
    | _ => exact .inr H
  | ends e x =>
    cases e with
    | send r =>
      simp only [step] at H
      split at H
      · rename_i hr
        rcases H with ⟨g, hg, rfl⟩ | hobtained
        · left
          have hg' : tokenIn? x = some g := Option.some.inj hg
          simp [Deed.issues, hr, hg']
        · exact .inr (.inr hobtained)
      · exact .inr H
    | timeOfDay =>
      simp only [step, readsTime] at H
      split at H
      · exact .inr H
      · rename_i g _ hg
        rcases H with ⟨_, ⟨⟩, _⟩ | ⟨z, hz, rfl⟩
        cases hz
        exact .inr (.inl ⟨g, hg, rfl⟩)
      · exact .inr H
    | acquire => exact absurd H (not_pending rfl rfl)
    | release y => exact absurd H (not_pending rfl rfl)
    | _ => exact .inr H
  | leaves => exact absurd H (not_pending rfl rfl)

theorem Coherent.not_pending_of_asked {c : Config} {P : Token → Prop} (H : a.Coherent c P)
    (ha : a.asked = none) : ¬ a.Pending accessToken :=
  not_pending (Classical.not_not.1 fun hn => H.answered hn ha)
    (Classical.not_not.1 fun hn => H.obtained hn ha)

end Account

/-! ### The laws of lineage -/

/-- A request with a token carries none that was rejected before, but a newer one. -/
def Supersedes (first : Option Token) (o : Occurrence) (before : Chronicle) : Prop :=
  ∀ r a t, o.deed = .starts (.send r) → r.bearer? = some a → before.Rejected o.task t →
    a ≠ t ∧ before.Newer first a t

/-- A token is not in the cache any more, and what a task has left there is newer. -/
structure Gone (first cache : Option Token) (h : Chronicle) (b : Bearings) (accessToken : String) :
    Prop where
  cache : ∀ z, cache = some z → z.accessToken ≠ accessToken
  gave : ∀ z, b.gave = some (some z) →
    z.accessToken ≠ accessToken ∧ h.Newer first z.accessToken accessToken

theorem Gone.cons {first cache : Option Token} {h : Chronicle} {b b' : Bearings}
    {accessToken : String} (H : Gone first cache h b accessToken) (o : Occurrence)
    (hb : b'.gave = b.gave) : Gone first cache (o :: h) b' accessToken :=
  ⟨H.cache, fun z hz => (H.gave z (hb ▸ hz)).imp_right (·.cons o)⟩

/-- Every token comes into the cache once, after all those that have been there before. -/
structure Lineage (c : Config) (first cache : Option Token) (h : Chronicle) : Prop where
  coherent : ∀ i, (h.account i).Coherent c fun _ => False
  left : ∀ a ∈ h.left first, a ∈ h.issued first
  pending : ∀ i a, (h.account i).Pending a → a ∈ h.issued first ∧ a ∉ h.left first
  cached : ∀ z, cache = some z → z.accessToken ∈ h.left first ∧
    ∀ t ∈ h.left first, z.accessToken ≠ t → h.Newer first z.accessToken t
  gave : ∀ i z, (Bearings.conduct.state i h).2.gave = some (some z) →
    z.accessToken ∈ h.left first
  rejected : ∀ i t, h.Rejected i t → t ∈ h.left first ∧
    ((Bearings.conduct.state i h).2.suspect = some t ∨
      Gone first cache h (Bearings.conduct.state i h).2 t)
  never : h.Every (Supersedes first)

namespace Lineage

variable {σ : Type} {c : Config} {w : World σ} {first cache : Option Token} {now i : Nat}
  {h : Chronicle} {d : Deed}

theorem nil (c : Config) (first : Option Token) : Lineage c first first [] where
  coherent _ := .blank
  left _ ha := ha
  pending _ _ ha := absurd ha (Account.not_pending rfl rfl)
  cached z hz := by
    subst hz
    refine ⟨List.mem_singleton.2 rfl, fun t ht hne => absurd (List.mem_singleton.1 ht).symm hne⟩
  gave _ _ hz := nomatch hz
  rejected _ _ := by
    rintro ⟨o, ho, _⟩
    cases ho
  never := Chronicle.every_nil _

/-- Deeds that do not give the cache back. -/
theorem keep (H : Lineage c first cache h)
    (hissued : (Chronicle.issued first (⟨i, now, cache, d⟩ :: h)).Nodup)
    (hcoherent : ((h.account i).step d).Coherent c fun _ => False) (hputs : d.puts = [])
    (hgave : ∀ b : Bearings, (b.step d).gave = b.gave)
    (hrejected : ∀ t, Chronicle.Rejected (⟨i, now, cache, d⟩ :: h) i t → t ∈ h.left first ∧
      (((Bearings.conduct.state i h).2.step d).suspect = some t ∨
        Gone first cache h (Bearings.conduct.state i h).2 t))
    (hnever : Supersedes first ⟨i, now, cache, d⟩ h) :
    Lineage c first cache (⟨i, now, cache, d⟩ :: h) := by
  have hleft : Chronicle.left first (⟨i, now, cache, d⟩ :: h) = h.left first :=
    Chronicle.left_cons_of_nil hputs
  have hstate : (Bearings.conduct.state i (⟨i, now, cache, d⟩ :: h)).2 =
      (Bearings.conduct.state i h).2.step d :=
    congrArg Prod.snd (Bearings.conduct.state_same ⟨i, now, cache, d⟩ h)
  refine ⟨Chronicle.forall_account_cons H.coherent hcoherent, fun a ha => ?_, ?_,
    fun z hz => ?_, ?_, fun j t ht => ?_, Chronicle.every_cons.2 ⟨hnever, H.never⟩⟩
  · rw [hleft] at ha
    exact Chronicle.mem_issued_cons (H.left a ha)
  · rw [hleft]
    refine Chronicle.forall_account_cons (o := ⟨i, now, cache, d⟩)
      (P := fun _ a => ∀ t, a.Pending t → t ∈ _ ∧ t ∉ h.left first)
      (fun j t ht => (H.pending j t ht).imp_left Chronicle.mem_issued_cons) fun t ht => ?_
    rcases Account.pending_of_step ht with hnew | hold
    · -- a token that has just come is not one that has been in the cache
      refine ⟨List.mem_append_left _ hnew, fun hin => ?_⟩
      exact (List.nodup_append.1 hissued).2.2 t hnew t (H.left t hin) rfl
    · exact (H.pending i t hold).imp_left Chronicle.mem_issued_cons
  · rw [hleft]
    exact (H.cached z hz).imp_right fun hall t ht hne => (hall t ht hne).cons _
  · rw [hleft]
    refine Bearings.conduct.forall_state_cons (o := ⟨i, now, cache, d⟩)
      (P := fun _ s => ∀ z, s.2.gave = some (some z) → z.accessToken ∈ h.left first) H.gave ?_
    exact fun z hz => H.gave i z ((hgave _).symm.trans hz)
  · rw [hleft]
    by_cases hij : i = j
    · subst hij
      rw [hstate]
      exact (hrejected t ht).imp_right fun hor => hor.imp_right (·.cons _ (hgave _))
    · rcases Chronicle.rejected_cons_iff.1 ht with ⟨hj, _⟩ | ht
      · exact absurd hj hij
      · rw [Conduct.state_other (o := ⟨i, now, cache, d⟩) _ hij]
        exact (H.rejected j t ht).imp_right fun hor => hor.imp_right (·.cons _ rfl)

/-- Deeds that have nothing to do with requests that carry a token either. -/
theorem keep_plain (H : Lineage c first cache h)
    (hissued : (Chronicle.issued first (⟨i, now, cache, d⟩ :: h)).Nodup)
    (hcoherent : ((h.account i).step d).Coherent c fun _ => False) (hputs : d.puts = [])
    (hstep : ∀ b : Bearings, (b.step d) = b) (hrejects : d.rejects? = none)
    (hnever : Supersedes first ⟨i, now, cache, d⟩ h) :
    Lineage c first cache (⟨i, now, cache, d⟩ :: h) := by
  refine H.keep hissued hcoherent hputs (fun b => congrArg Bearings.gave (hstep b))
    (fun t ht => ?_) hnever
  rw [hstep]
  rcases Chronicle.rejected_cons_iff.1 ht with ⟨_, hnow⟩ | ht
  · rw [hrejects] at hnow
    cases hnow
  · exact H.rejected i t ht

theorem supersedes_of_ne {o : Occurrence} (ho : ∀ r, o.deed ≠ .starts (.send r)) :
    Supersedes first o h :=
  fun r _ _ hd => absurd hd (ho r)

theorem start (H : Lineage c first cache h) {e : Effect}
    (hissued : (Chronicle.issued first (⟨i, now, cache, .starts e⟩ :: h)).Nodup)
    (hask : (Terms.free.conduct c).Permits ((Terms.free.conduct c).state i h) e)
    (hsend : Bearings.conduct.Permits (Bearings.conduct.state i h) e) :
    Lineage c first cache (⟨i, now, cache, .starts e⟩ :: h) := by
  refine H.keep_plain hissued ((H.coherent i).start fun r he hr => ?_) rfl (fun _ => rfl) rfl ?_
  · subst he
    obtain ⟨cached, g, hm⟩ := hask.2 hr
    rw [← Conduct.state_fst (Terms.free.conduct c), hm.held]
    exact nofun
  · rintro r a t hd ha ht
    cases hd
    -- the token is the one that the task has left in the cache, and none is suspected
    obtain ⟨hclear, z, hgave, rfl⟩ := hsend.2 a ha
    obtain ⟨_, hsuspect | hgone⟩ := H.rejected i t ht
    · rw [hclear] at hsuspect
      cases hsuspect
    · exact hgone.gave z hgave

/-- A token may be rejected that the task has left in the cache before. -/
theorem reply (H : Lineage c first cache h) {r : Request} {x : Reply} {s : Account × Bearings}
    (hissued : (Chronicle.issued first (⟨i, now, cache, .ends (.send r) x⟩ :: h)).Nodup)
    (hcoherent : ((h.account i).step (.ends (.send r) x)).Coherent c fun _ => False)
    (hs : Bearings.conduct.state i h = Bearings.conduct.step s (.starts (.send r)))
    (hsend : Bearings.conduct.Permits s (.send r)) (hr : r.asksForToken = false) :
    Lineage c first cache (⟨i, now, cache, .ends (.send r) x⟩ :: h) := by
  obtain ⟨a, ha⟩ : ∃ a, r.bearer? = some a := by
    rw [Request.asksForToken, Option.isNone_eq_false_iff] at hr
    exact Option.isSome_iff_exists.1 hr
  obtain ⟨hclear, z, hgave, rfl⟩ := hsend.2 a ha
  have hnotes : (Bearings.conduct.state i h).2 = s.2 := by
    rw [hs]
    rfl
  have hstep (b : Bearings) : b.step (.ends (.send r) x) =
      { b with suspect := (Deed.ends (.send r) x).rejects? } := by
    simp only [Bearings.step, hr, Bool.false_eq_true, if_false]
  refine H.keep hissued hcoherent rfl (fun b => by rw [hstep]) (fun t ht => ?_)
    (supersedes_of_ne (by simp))
  rcases Chronicle.rejected_cons_iff.1 ht with ⟨_, hnow⟩ | ht
  · refine ⟨?_, .inl (by rw [hstep]; exact hnow)⟩
    rw [Deed.rejects?, ha, Option.bind_some] at hnow
    rw [Notes.eq_of_rejection hnow]
    exact H.gave i z (hnotes ▸ hgave)
  · refine (H.rejected i t ht).imp_right fun hor => .inr (hor.resolve_left fun hsuspect => ?_)
    rw [hnotes, hclear] at hsuspect
    cases hsuspect

/-- What may be left in the cache: what is there, or a token that has not been there yet. -/
theorem left_of_release (H : Lineage c first cache h) (hs : h.Sole cache) {y : Option Token}
    {n : Notes} (hm : Terms.free.MayRelease (h.account i) n y) {z : Token} (hz : y = some z) :
    cache = some z ∨
      (h.account i).obtained = some z ∧ z.accessToken ∈ h.issued first ∧
        z.accessToken ∉ h.left first := by
  cases hm with
  | same hheld _ => exact .inl ((hs i y hheld).1.symm.trans hz)
  | new hobtained =>
    cases hz
    exact .inr ⟨hobtained, H.pending i _ (.inr ⟨z, hobtained, rfl⟩)⟩
  | dropped _ _ _ => cases hz

/-- What is in the cache after it was given back has come there after all else. -/
theorem newer_of_release (H : Lineage c first cache h) (hs : h.Sole cache) {y : Option Token}
    {n : Notes} (hm : Terms.free.MayRelease (h.account i) n y) (u : Unit) {z : Token}
    (hz : y = some z) {t : String}
    (ht : t ∈ Chronicle.left first (⟨i, now, cache, .ends (.release y) u⟩ :: h))
    (hne : z.accessToken ≠ t) :
    Chronicle.Newer first (⟨i, now, cache, .ends (.release y) u⟩ :: h) z.accessToken t := by
  subst hz
  have hold : t ∈ h.left first :=
    (List.mem_append.1 ht).resolve_left fun hin => hne (List.mem_singleton.1 hin).symm
  rcases H.left_of_release hs hm rfl with hcache | ⟨hobtained, _⟩
  · exact ((H.cached z hcache).2 t hold hne).cons _
  · exact ⟨_, h, List.suffix_refl _, ⟨z, rfl, rfl, hobtained⟩, H.left t hold⟩

/-- A token that is gone does not come back. -/
theorem ne_of_release (H : Lineage c first cache h) (hs : h.Sole cache) {y : Option Token}
    {n : Notes} (hm : Terms.free.MayRelease (h.account i) n y) {t : String}
    (ht : t ∈ h.left first) (hcache : ∀ z, cache = some z → z.accessToken ≠ t) {z : Token}
    (hz : y = some z) : z.accessToken ≠ t := by
  rcases H.left_of_release hs hm hz with hin | ⟨_, _, hout⟩
  · exact hcache z hin
  · rintro rfl
    exact hout ht

/-- A token that was rejected for a task is still the one that the task suspects when it leaves it
in the cache, and else it is gone. -/
theorem rejected_of_release (H : Lineage c first cache h) (hs : h.Sole cache) {y : Option Token}
    {n : Notes} (hm : Terms.free.MayRelease (h.account i) n y) (u : Unit) {j : Nat} {t : String}
    (ht : h.Rejected j t) :
    t ∈ Chronicle.left first (⟨i, now, cache, .ends (.release y) u⟩ :: h) ∧
      ((Bearings.conduct.state j (⟨i, now, cache, .ends (.release y) u⟩ :: h)).2.suspect = some t ∨
        Gone first y (⟨i, now, cache, .ends (.release y) u⟩ :: h)
          (Bearings.conduct.state j (⟨i, now, cache, .ends (.release y) u⟩ :: h)).2 t) := by
  obtain ⟨htoken, hor⟩ := H.rejected j t ht
  refine ⟨Chronicle.mem_left_cons htoken, ?_⟩
  by_cases hij : i = j
  · subst hij
    have hstate : (Bearings.conduct.state i (⟨i, now, cache, .ends (.release y) u⟩ :: h)).2 =
        (Bearings.conduct.state i h).2.step (.ends (.release y) u) :=
      congrArg Prod.snd (Bearings.conduct.state_same ⟨i, now, cache, _⟩ h)
    rw [hstate]
    by_cases hy : ∃ z, y = some z ∧ z.accessToken = t
    · -- the task has found it there, so it is the one that it suspects
      obtain ⟨z, rfl, rfl⟩ := hy
      have hsuspect := hor.resolve_right fun hgone =>
        H.ne_of_release hs hm htoken hgone.cache rfl rfl
      left
      simp [Bearings.step, hsuspect]
    · refine .inr ⟨fun z hz hzt => hy ⟨z, hz, hzt⟩, fun z hz => ?_⟩
      have hz' : y = some z := Option.some.inj hz
      have hne : z.accessToken ≠ t := fun hzt => hy ⟨z, hz', hzt⟩
      exact ⟨hne, H.newer_of_release hs hm u hz' (Chronicle.mem_left_cons htoken) hne⟩
  · rw [Conduct.state_other (o := ⟨i, now, cache, _⟩) _ hij]
    refine hor.imp_right fun hgone => ⟨fun z hz => ?_, fun z hz => ?_⟩
    · exact H.ne_of_release hs hm htoken hgone.cache hz
    · exact (hgone.gave z hz).imp_right (·.cons _)

theorem release (H : Lineage c first cache h) (hs : h.Sole cache) {y : Option Token} {n : Notes}
    (hm : Terms.free.MayRelease (h.account i) n y) (hheld : (h.account i).held ≠ none) (u : Unit) :
    Lineage c first y (⟨i, now, cache, .ends (.release y) u⟩ :: h) := by
  have hcoherent : ∀ j, (Chronicle.account j (⟨i, now, cache, .ends (.release y) u⟩ :: h)).Coherent
      c fun _ => False :=
    Chronicle.forall_account_cons (o := ⟨i, now, cache, _⟩) H.coherent .blank
  have hissued : Chronicle.issued first (⟨i, now, cache, .ends (.release y) u⟩ :: h) =
      h.issued first := Chronicle.issued_cons_of_nil rfl
  have hput (z : Token) (hz : y = some z) :
      z.accessToken ∈ Chronicle.left first (⟨i, now, cache, .ends (.release y) u⟩ :: h) := by
    subst hz
    exact List.mem_cons_self
  obtain ⟨x, hx⟩ := Option.ne_none_iff_exists'.1 hheld
  refine ⟨hcoherent, fun a ha => ?_, fun j a ha => ?_, fun z hz => ⟨hput z hz, fun t ht hne => ?_⟩,
    ?_, fun j t ht => ?_, Chronicle.every_cons.2 ⟨supersedes_of_ne (by simp), H.never⟩⟩
  · rw [hissued]
    rcases List.mem_append.1 ha with hnew | hold
    · obtain ⟨z, hz, rfl⟩ := List.mem_map.1 hnew
      rcases H.left_of_release hs hm (Option.mem_toList.1 hz) with hcache | ⟨_, hin, _⟩
      · exact H.left _ (H.cached z hcache).1
      · exact hin
    · exact H.left a hold
  · refine absurd ha ((hcoherent j).not_pending_of_asked ?_)
    exact Chronicle.asked_release H.coherent hs hx u j
  · exact H.newer_of_release hs hm u hz ht hne
  · refine Bearings.conduct.forall_state_cons (o := ⟨i, now, cache, _⟩)
      (P := fun _ s => ∀ z, s.2.gave = some (some z) → z.accessToken ∈ _)
      (fun j z hz => Chronicle.mem_left_cons (H.gave j z hz)) fun z hz => ?_
    exact hput z (Option.some.inj hz)
  · have hbefore : h.Rejected j t :=
      (Chronicle.rejected_cons_iff.1 ht).resolve_left (by rintro ⟨_, ⟨⟩⟩)
    exact H.rejected_of_release hs hm u hbefore

theorem finish (H : Lineage c first cache h) (hs : h.Sole cache) {e : Effect} {x : e.Answer}
    {s : Account × Notes} {t : Account × Bearings}
    (hissued : (Chronicle.issued first (⟨i, now, cache, .ends e x⟩ :: h)).Nodup)
    (hs₀ : (Terms.free.conduct c).state i h = (Terms.free.conduct c).step s (.starts e))
    (hask : (Terms.free.conduct c).Permits s e)
    (ht₀ : Bearings.conduct.state i h = Bearings.conduct.step t (.starts e))
    (hsend : Bearings.conduct.Permits t e) (hx : w.Answers cache now e x) :
    Lineage c first (e.leaving cache) (⟨i, now, cache, .ends e x⟩ :: h) := by
  have haccount : h.account i = s.1.step (.starts e) := by
    rw [← Conduct.state_fst (Terms.free.conduct c), hs₀]
    rfl
  have hcoherent : ((h.account i).step (.ends e x)).Coherent c fun _ => False := by
    refine (H.coherent i).finish ?_ hx fun _ _ => False.elim
    rintro r rfl hr
    rw [haccount]
    simp [Account.step, hr]
  cases e with
  | release y =>
    have hheld : (h.account i).held ≠ none := by
      rw [haccount, Account.held_starts]
      exact hask.1
    refine H.release hs (n := s.2) ?_ hheld x
    rw [haccount]
    exact hask.2
  | send r =>
    by_cases hr : r.asksForToken = true
    · refine H.keep_plain hissued hcoherent rfl (fun b => if_pos hr) ?_ (supersedes_of_ne (by simp))
      rw [Deed.rejects?, Option.isNone_iff_eq_none.1 hr]
      rfl
    · exact H.reply hissued hcoherent ht₀ hsend (Bool.eq_false_iff.2 hr)
  | _ => exact H.keep_plain hissued hcoherent rfl (fun _ => rfl) rfl (supersedes_of_ne (by simp))

end Lineage

theorem upholds_lineage {σ : Type} (c : Config) (w : World σ) (cancels : Prop) :
    ((Terms.free.conduct c).both Bearings.conduct).Upholds w cancels
      (fun h => (h.issued w.cache).Nodup) fun cache _ h => Lineage c w.cache cache h := by
  refine Conduct.upholds_both (fun H _ hask hsend hA => H.start hA hask hsend)
    (fun {_ _ _ _ e _ _ _} H hs hs₀ hask ht₀ hsend _ hx hA => ⟨⟨?_, trivial⟩, ?_⟩)
    fun H hA => ?_
  · cases e <;> trivial
  · exact H.finish hs hA hs₀ hask ht₀ hsend hx
  · exact H.keep_plain hA .blank rfl (fun _ => rfl) rfl (Lineage.supersedes_of_ne (by simp))

end CloudClient
