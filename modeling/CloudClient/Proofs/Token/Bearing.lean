import CloudClient.Proofs.Token.Acquiring

/-!
How tokens are sent. A request carries the token that its task has just left in the cache, and none
that was rejected: a task whose token was rejected sends no other request before it has given the
cache back without that token.
-/

namespace CloudClient

/-- What a task remembers of the tokens that it sends. -/
structure Bearings where
  /-- What it left in the cache when it last gave it back. -/
  gave : Option (Option Token) := none
  /-- The token with which its last request was rejected, until it finds the cache without that. -/
  suspect : Option String := none

/-- The token that a reply rejects. -/
def Deed.rejects? : Deed → Option String
  | .ends (.send r) x => r.bearer?.bind fun accessToken => Notes.rejection accessToken x
  | _ => none

theorem Notes.eq_of_rejection {accessToken a : String} {x : Reply}
    (h : rejection accessToken x = some a) : a = accessToken := by
  cases x with
  | error f => cases h
  | ok response =>
    rw [rejection] at h
    split at h
    · exact (Option.some.inj h).symm
    · cases h

namespace Bearings

def step (b : Bearings) : Deed → Bearings
  | .ends (.release x) _ =>
    { gave := some x, suspect := b.suspect.filter fun a => x.any (·.accessToken = a) }
  | .ends (.send r) x =>
    if r.asksForToken then b else { b with suspect := (Deed.ends (.send r) x).rejects? }
  | _ => b

/-- The token of a request was not rejected, and is the one that was last left in the cache. -/
def conduct : Conduct Bearings where
  blank := {}
  note s d := s.2.step d
  may
    | s, .send r => ∀ a, r.bearer? = some a →
        s.2.suspect = none ∧ ∃ z, s.2.gave = some (some z) ∧ z.accessToken = a
    | _, _ => True
  expects _ _ _ := True

variable {α : Type} {c : Config} {s : Account × Bearings}

/-- A task without the cache that may send what it is going to get. -/
def Free (s : Account × Bearings) : Prop :=
  s.1 = {} ∧ s.2.suspect = none

theorem after_aside {e : Effect} (he : e.Aside) (x : e.Answer) :
    (conduct.after s e x).1.held = s.1.held ∧ (conduct.after s e x).2 = s.2 := by
  have hacquire : e ≠ .acquire := by
    rintro rfl
    exact he
  have hrelease (y : Option Token) : e ≠ .release y := by
    rintro rfl
    exact he
  refine ⟨?_, ?_⟩
  · exact ((s.1.step (.starts e)).held_ends x hacquire hrelease).trans (s.1.held_starts e)
  · cases e with
    | release y => exact he.elim
    | send r =>
      have hr : r.asksForToken = true := he
      simp only [Conduct.after, Conduct.step, conduct, step, hr, if_true]
    | _ => rfl

/-- On the way to a new token no token is sent. -/
theorem obeys_aside {p : Program α} {n : Nat} (hp : p.Bounded Effect.Aside n)
    (s : Account × Bearings) :
    conduct.Obeys (fun s' _ => s'.1.held = s.1.held ∧ s'.2 = s.2) p s := by
  induction p generalizing n s with
  | done a => exact ⟨rfl, rfl⟩
  | ask e k ih =>
    obtain ⟨he, _, hk⟩ := hp
    have hpermits : conduct.Permits s e := by
      cases e with
      | acquire => exact he.elim
      | release y => exact he.elim
      | send r =>
        refine ⟨trivial, fun a ha => ?_⟩
        have hr : r.bearer?.isNone = true := he
        rw [ha] at hr
        cases hr
      | _ => exact ⟨trivial, trivial⟩
    refine ⟨hpermits, fun x _ => (ih x (hk x) _).mono fun s' _ h => ?_⟩
    obtain ⟨hheld, hnotes⟩ := after_aside he x
    exact ⟨h.1.trans hheld, h.2.trans hnotes⟩

/-! ### The functions of the cache -/

theorem obeys_acquire {f : Option Token → Program α} {post : Account × Bearings → α → Prop}
    (hs : s.1 = {}) (h : ∀ x, conduct.Obeys post (f x) ({ held := some x }, s.2)) :
    conduct.Obeys post (Program.acquire >>= f) s := by
  refine ⟨⟨?_, trivial⟩, fun x _ => h x⟩
  rw [hs]
  rfl

theorem obeys_release {y : Option Token} {r : α} (hs : s.1.held ≠ none) :
    conduct.Obeys (fun s' r' => s' = ({}, s.2.step (.ends (.release y) ())) ∧ r' = r)
      (do Program.release y; return r) s :=
  ⟨⟨hs, trivial⟩, fun _ _ => ⟨rfl, rfl⟩⟩

theorem obeys_usable? (cached : Option Token) (hs : s.1.held = some cached) :
    conduct.Obeys (fun s' r => s'.1.held = some cached ∧ s'.2 = s.2 ∧
      ∀ t, r = some t → cached = some t) (TokenCache.usable? c cached) s := by
  cases cached with
  | none => exact ⟨hs, rfl, fun _ ht => nomatch ht⟩
  | some t =>
    refine ⟨⟨trivial, trivial⟩, fun now _ => ?_⟩
    obtain ⟨hheld, hnotes⟩ := after_aside (s := s) (e := .timeOfDay) trivial now
    refine ⟨hheld.trans hs, hnotes, fun t' ht => ?_⟩
    split at ht
    · exact ht
    · cases ht

theorem obeys_get (hs : Free s) :
    conduct.Obeys (fun s' r => Free s' ∧ ∀ t, r = .ok t → s'.2.gave = some (some t))
      (TokenCache.get c) s := by
  have hgive {y : Option Token} {r : Except Failure Token} {s' : Account × Bearings}
      (hheld : s'.1.held ≠ none) (hnotes : s'.2 = s.2) (hr : ∀ t, r = .ok t → y = some t) :
      conduct.Obeys (fun s' r => Free s' ∧ ∀ t, r = .ok t → s'.2.gave = some (some t))
        (do Program.release y; return r) s' := by
    refine (obeys_release hheld).mono ?_
    rintro _ _ ⟨rfl, rfl⟩
    refine ⟨⟨rfl, ?_⟩, fun t ht => congrArg some (hr t ht)⟩
    simp only [step, hnotes, hs.2]
    rfl
  refine obeys_acquire hs.1 fun cached => ?_
  refine (obeys_usable? cached rfl).bind ?_
  rintro s₁ (_ | t) ⟨hheld, hnotes, hfound⟩
  · refine (obeys_aside (TokenCache.bounded_renew c _) s₁).bind ?_
    rintro s₂ (f | t) ⟨hheld', hnotes'⟩
    · exact hgive (by simp [hheld', hheld]) (hnotes'.trans hnotes) fun _ ht => nomatch ht
    · refine hgive (by simp [hheld', hheld]) (hnotes'.trans hnotes) ?_
      rintro _ ⟨⟩
      rfl
  · refine hgive (by simp [hheld]) hnotes ?_
    rintro _ ⟨⟩
    exact hfound t rfl

theorem obeys_peek (hs : Free s) : conduct.Obeys (fun _ _ => True) TokenCache.peek s :=
  obeys_acquire hs.1 fun _ => (obeys_release (by simp)).mono fun _ _ _ => trivial

theorem obeys_clear (hs : Free s) : conduct.Obeys (fun _ _ => True) TokenCache.clear s :=
  obeys_acquire hs.1 fun _ => ⟨⟨nofun, trivial⟩, fun _ _ => trivial⟩

/-- Who discards the token that it suspects may go on. -/
theorem obeys_discard {accessToken : String} (hs : s.1 = {})
    (hsuspect : ∀ a, s.2.suspect = some a → a = accessToken) :
    conduct.Obeys (fun s' _ => Free s') (TokenCache.discard accessToken) s := by
  refine obeys_acquire hs fun cached => ⟨⟨nofun, trivial⟩, fun _ _ => ⟨rfl, ?_⟩⟩
  refine Option.filter_eq_none_iff.2 fun a ha => ?_
  rw [hsuspect a ha]
  by_cases hc : cached.any (·.accessToken = accessToken) = true
  · rw [if_pos hc]
    exact nofun
  · rwa [if_neg hc]

end Bearings

end CloudClient
