import CloudClient.Proofs.Program.Course
import CloudClient.Proofs.Program.Together

/-!
Two conducts at once. Who keeps to each of them keeps to both, so that programs which are known to
keep to one need to be looked at for the other one only; and a law may rest on both. Rules that ask
for nothing but effects of a kind are kept by whoever keeps to some rules with such effects.
-/

namespace CloudClient.Conduct

variable {T U σ α : Type} {D : Conduct T} {E : Conduct U}

/-- The rules of both conducts, with the notes of both. -/
def both (D : Conduct T) (E : Conduct U) : Conduct (T × U) where
  blank := (D.blank, E.blank)
  note s d := (D.note (s.1, s.2.1) d, E.note (s.1, s.2.2) d)
  may s e := D.may (s.1, s.2.1) e ∧ E.may (s.1, s.2.2) e
  expects s e x := D.expects (s.1, s.2.1) e x ∧ E.expects (s.1, s.2.2) e x

theorem Obeys.both {post : Account × T → α → Prop} {post' : Account × U → α → Prop}
    {p : Program α} {a : Account} {t : T} {u : U} (h : D.Obeys post p (a, t))
    (h' : E.Obeys post' p (a, u)) :
    (D.both E).Obeys (fun s r => post (s.1, s.2.1) r ∧ post' (s.1, s.2.2) r) p (a, (t, u)) := by
  induction p generalizing a t u with
  | done r => exact ⟨h, h'⟩
  | ask e k ih =>
    refine ⟨⟨h.1.1, h.1.2, h'.1.2⟩, fun x hx => ?_⟩
    exact ih x (h.2 x hx.1) (h'.2 x hx.2)

/-- The rules of `E` allow effects of a kind as long as `I` holds of the notes, which these effects
do not change. -/
theorem Obeys.of_bounded {P : Effect → Prop} {I : U → Prop} {post : Account × T → α → Prop}
    {p : Program α} {n : Nat} {a : Account} {t : T} {u : U}
    (hcounts : ∀ s e x, D.expects s e x) (hmay : ∀ a u e, I u → P e → E.may (a, u) e)
    (hkeeps : ∀ a u e x, I u → P e → I (E.after (a, u) e x).2)
    (h : D.Obeys post p (a, t)) (hp : p.Bounded P n) (hu : I u) :
    E.Obeys (fun s r => ∃ t, post (s.1, t) r) p (a, u) := by
  induction p generalizing a t u n with
  | done r => exact ⟨t, h⟩
  | ask e k ih =>
    obtain ⟨he, _, hk⟩ := hp
    refine ⟨⟨h.1.1, hmay a u e hu he⟩, fun x _ => ?_⟩
    exact ih x (h.2 x (hcounts _ _ _)) (hk x) (hkeeps a u e x hu he)

/-- Effects of a kind that the rules of `D` allow are all of another kind. -/
theorem Obeys.bounded {P Q : Effect → Prop} {post : Account × T → α → Prop} {p : Program α}
    {n : Nat} {s : Account × T} (hcounts : ∀ s e x, D.expects s e x)
    (hmay : ∀ s e, D.may s e → P e → Q e) (h : D.Obeys post p s) (hp : p.Bounded P n) :
    p.Bounded Q n := by
  induction p generalizing s n with
  | done r => trivial
  | ask e k ih =>
    obtain ⟨he, hn, hk⟩ := hp
    exact ⟨hmay s e h.1.2 he, hn, fun x => ih x (h.2 x (hcounts _ _ _)) (hk x)⟩

theorem state_both (i : Nat) (h : Chronicle) :
    (D.both E).state i h = (h.account i, ((D.state i h).2, (E.state i h).2)) := by
  induction h with
  | nil => rfl
  | cons o h ih =>
    by_cases hi : o.task = i
    · subst hi
      rw [state_same, state_same, state_same, Chronicle.account_same, ih, ← state_fst D]
      have hE : ((D.state o.task h).1, (E.state o.task h).2) = E.state o.task h := by
        rw [state_fst, ← state_fst E]
      simp only [step, both, hE]
    · rw [state_other _ hi, state_other _ hi, state_other _ hi, Chronicle.account_other hi, ih]

/-- A law that is not about the time. -/
theorem upholds_both {w : World σ} {cancels : Prop} {A : Chronicle → Prop}
    {J : Option Token → Chronicle → Prop}
    (start : ∀ {cache now h i e}, J cache h → h.Sole cache → D.Permits (D.state i h) e →
      E.Permits (E.state i h) e → A (⟨i, now, cache, .starts e⟩ :: h) →
      J cache (⟨i, now, cache, .starts e⟩ :: h))
    (finish : ∀ {cache now h i e x s t}, J cache h → h.Sole cache →
      D.state i h = D.step s (.starts e) → D.Permits s e →
      E.state i h = E.step t (.starts e) → E.Permits t e →
      (e = .acquire → ∀ j, (h.account j).held = none) → w.Answers cache now e x →
      A (⟨i, now, cache, .ends e x⟩ :: h) →
      (D.expects (D.state i h) e x ∧ E.expects (E.state i h) e x) ∧
        J (e.leaving cache) (⟨i, now, cache, .ends e x⟩ :: h))
    (leave : ∀ {cache now h i}, J cache h → A (⟨i, now, cache, .leaves⟩ :: h) →
      J cache (⟨i, now, cache, .leaves⟩ :: h)) :
    (D.both E).Upholds w cancels A fun cache _ h => J cache h := by
  have hD (i : Nat) (h : Chronicle) : (h.account i, (D.state i h).2) = D.state i h := by
    rw [← state_fst D]
  have hE (i : Nat) (h : Chronicle) : (h.account i, (E.state i h).2) = E.state i h := by
    rw [← state_fst E]
  refine ⟨fun {cache now h i e} H hs hp hA => ?_,
    fun {cache now h i e x s} H hs hs₀ hp hnone hx hA => ?_, fun _ H hA => leave H hA,
    fun H _ _ => H⟩
  · rw [state_both] at hp
    refine start H hs ?_ ?_ hA
    · rw [← hD]
      exact ⟨hp.1, hp.2.1⟩
    · rw [← hE]
      exact ⟨hp.1, hp.2.2⟩
  · rw [state_both] at hs₀ ⊢
    obtain ⟨a, t, u⟩ := s
    obtain ⟨ha, hnotes⟩ := Prod.mk.inj hs₀
    obtain ⟨ht, hu⟩ := Prod.mk.inj hnotes
    obtain ⟨hexpects, hJ⟩ := finish H hs (s := (a, t)) (t := (a, u))
      ((hD i h).symm.trans (Prod.ext ha ht)) ⟨hp.1, hp.2.1⟩
      ((hE i h).symm.trans (Prod.ext ha hu)) ⟨hp.1, hp.2.2⟩ hnone hx hA
    rw [← hD, ← hE] at hexpects
    exact ⟨hexpects, hJ⟩

end CloudClient.Conduct
