import CloudClient.Proofs.Machine.Scripted
import CloudClient.Proofs.Machine.Session
import CloudClient.Proofs.Token.Custody

/-!
Exchanges, in which a task gets a new token while it has the cache. Tasks that find the cache empty
at the same time share one: the first of them gets the token, and all others find it.
-/

namespace CloudClient

namespace Chronicle

/-- The task has asked for a token and not given the cache back since. -/
def Exchanging (h : Chronicle) (i : Nat) : Prop :=
  (h.account i).asked ≠ none

/-- Whether an exchange starts: a request for a token is sent that is not the last one again. -/
def startsExchange (o : Occurrence) (before : Chronicle) : Bool :=
  match o.deed with
  | .starts (.send r) => r.asksForToken && (before.account o.task).asked != some r
  | _ => false

def exchanges : Chronicle → Nat
  | [] => 0
  | o :: h => exchanges h + if startsExchange o h then 1 else 0

/-- What is left in the cache by the first task that gives it back. -/
def firstLeft : Chronicle → Option (Option Token)
  | [] => none
  | o :: h =>
    (firstLeft h).or <|
      match o.deed with
      | .ends (.release x) _ => some x
      | _ => none

/-- The first task to give the cache back leaves a token in it, and that one lives long enough
whatever happens later. -/
structure FirstLasts {σ : Type} (c : Config) (w : World σ) (h : Chronicle) : Prop where
  yields : h.firstLeft ≠ some none
  lasts : h.Every fun o before => ∀ t, before.firstLeft = some (some t) →
    t.outlives (w.timeOfDay o.time) c.tokenMargin = true

theorem firstLasts_iff {σ : Type} {c : Config} {w : World σ} {h : Chronicle} :
    FirstLasts c w h ↔ h.firstLeft ≠ some none ∧ h.Every fun o before =>
      (before.firstLeft.join.all fun t =>
        t.outlives (w.timeOfDay o.time) c.tokenMargin) = true := by
  have hjoin (before : Chronicle) (P : Token → Bool) : before.firstLeft.join.all P = true ↔
      ∀ t, before.firstLeft = some (some t) → P t = true := by
    simp [Option.all_eq_true, Option.join_eq_some_iff]
  simp only [hjoin]
  exact ⟨fun h => ⟨h.yields, h.lasts⟩, fun h => ⟨h.1, h.2⟩⟩

instance {σ : Type} (c : Config) (w : World σ) (h : Chronicle) : Decidable (FirstLasts c w h) :=
  decidable_of_iff' _ firstLasts_iff

theorem firstLasts_of_cons {σ : Type} {c : Config} {w : World σ} (o : Occurrence) (h : Chronicle)
    (H : FirstLasts c w (o :: h)) : FirstLasts c w h := by
  refine ⟨fun hn => H.yields ?_, (every_cons.1 H.lasts).2⟩
  simp [firstLeft, hn]

end Chronicle

namespace Terms

/-- Nobody empties the cache, and a token that is found in it will do. -/
def keeping (c : Config) : Terms where
  drops _ _ := False
  found _ _ := True
  replies _ _ := True
  reads a now := ∀ t, a.held = some (some t) → t.outlives now c.tokenMargin = true

/-- What was got is what was left in the cache, if that is a token. -/
theorem Got.left {c : Config} {n : Notes} {s : Account × Notes} {r : Except Failure Token}
    (h : Got (keeping c) c n s r) :
    s.1 = {} ∧ ∃ x, s.2.gave = some x ∧ ∀ t, x = some t → r = .ok t := by
  cases r with
  | ok t =>
    obtain ⟨rfl, _⟩ := h
    exact ⟨rfl, some t, rfl, fun t' ht => by rw [Option.some.inj ht]⟩
  | error f =>
    obtain ⟨cached, rfl, _, _, hu⟩ := h
    refine ⟨rfl, cached, rfl, ?_⟩
    rintro t rfl
    obtain ⟨now, hr, ho⟩ := hu t rfl
    rw [hr t rfl] at ho
    contradiction

end Terms

/-! ### One exchange for all -/

/-- As long as nobody has given the cache back, one task at most is asking for a token. -/
structure Unopened (c : Config) (cache : Option Token) (h : Chronicle) : Prop where
  cache : cache = none
  gave : ∀ i, (((Terms.keeping c).conduct c).state i h).2.gave = none
  count : (∀ i, (h.account i).asked = none) ∧ h.exchanges = 0 ∨
    ∃ i, (h.account i).asked = some (Grant.clientCredentials.request c) ∧ h.exchanges = 1

/-- After that, the cache holds what the first task left there. -/
structure Settled (c : Config) (cache x : Option Token) (h : Chronicle) : Prop where
  cache : cache = x
  gave : ∀ i y, (((Terms.keeping c).conduct c).state i h).2.gave = some y → y = x
  asked : ∀ i, (h.account i).asked = none
  count : h.exchanges = 1

theorem Unopened.count_of_asks {c : Config} {cache : Option Token} {h : Chronicle}
    (H : Unopened c cache h) {i : Nat} (hi : (h.account i).asked ≠ none) : h.exchanges = 1 := by
  rcases H.count with ⟨hn, _⟩ | ⟨_, _, h1⟩
  · exact absurd (hn i) hi
  · exact h1

structure Shared (c : Config) (cache : Option Token) (h : Chronicle) : Prop where
  coherent : ∀ i, (h.account i).Coherent c fun _ => True
  unopened : h.firstLeft = none → Unopened c cache h
  settled : ∀ x, h.firstLeft = some x → Settled c cache x h

namespace Shared

variable {σ : Type} {c : Config} {w : World σ} {cache : Option Token} {now i : Nat} {h : Chronicle}

theorem firstLeft_starts (e : Effect) :
    Chronicle.firstLeft (⟨i, now, cache, .starts e⟩ :: h) = h.firstLeft := by
  simp [Chronicle.firstLeft]

theorem firstLeft_ends {e : Effect} (x : e.Answer) (he : ∀ y, e ≠ .release y) :
    Chronicle.firstLeft (⟨i, now, cache, .ends e x⟩ :: h) = h.firstLeft := by
  cases e with
  | release y => exact absurd rfl (he y)
  | _ => simp [Chronicle.firstLeft]

/-- Deeds that neither ask for a token nor give the cache back. -/
theorem keep (H : Shared c cache h) {d : Deed}
    (hd : ((h.account i).step d).Coherent c fun _ => True)
    (hgave : ∀ n : Notes, (n.step d).gave = n.gave)
    (hasked : ((h.account i).step d).asked = (h.account i).asked)
    (hleft : Chronicle.firstLeft (⟨i, now, cache, d⟩ :: h) = h.firstLeft)
    (hcount : Chronicle.exchanges (⟨i, now, cache, d⟩ :: h) = h.exchanges) :
    Shared c cache (⟨i, now, cache, d⟩ :: h) := by
  refine ⟨Chronicle.forall_account_cons H.coherent hd, fun hl => ?_, fun x hx => ?_⟩
  · have hU := H.unopened (hleft ▸ hl)
    exact ⟨hU.cache, fun j => (Terms.gave_cons hgave j).trans (hU.gave j), by
      simpa only [Chronicle.asked_cons hasked, hcount] using hU.count⟩
  · have hS := H.settled x (hleft ▸ hx)
    exact ⟨hS.cache, fun j y hy => hS.gave j y ((Terms.gave_cons hgave j).symm.trans hy),
      fun j => (Chronicle.asked_cons hasked j).trans (hS.asked j), hcount.trans hS.count⟩

theorem exchanges_starts {e : Effect} (he : ∀ r, e = .send r → r.asksForToken = false) :
    Chronicle.exchanges (⟨i, now, cache, .starts e⟩ :: h) = h.exchanges := by
  cases e with
  | send r => simp [Chronicle.exchanges, Chronicle.startsExchange, he r rfl]
  | _ => rfl

/-- Whoever asks for a token found the cache empty, and nobody has given it back so far. -/
theorem unopened_of_ask (H : Shared c cache h) (hs : h.Sole cache) (hA : h.firstLeft ≠ some none)
    {r : Http.Request} {cached : Option Token} {g : Grant}
    (hm : (h.account i).MayAsk c r cached g) :
    h.firstLeft = none ∧ r = Grant.clientCredentials.request c := by
  have hc : cached = cache := (hs i cached hm.held).1
  cases hl : h.firstLeft with
  | none =>
    refine ⟨rfl, ?_⟩
    rw [hm.request, hm.first (by simp [hc, (H.unopened hl).cache])]
  | some x =>
    have hS := H.settled x hl
    cases x with
    | none => exact absurd hl hA
    | some t =>
      -- the token that was left there was found and will do, so there was no need to ask
      have ht : cached = some t := hc.trans hS.cache
      obtain ⟨n, hn, ho⟩ := hm.fresh (hS.asked i) t ht
      have := (H.coherent i).checked n t hn (by rw [hm.held, ht]) trivial
      rw [this] at ho
      contradiction

theorem ask (H : Shared c cache h) (hs : h.Sole cache) (hA : h.firstLeft ≠ some none)
    {r : Http.Request} {cached : Option Token} {g : Grant} (hr : r.asksForToken = true)
    (hm : (h.account i).MayAsk c r cached g) :
    Shared c cache (⟨i, now, cache, .starts (.send r)⟩ :: h) := by
  obtain ⟨hl, hreq⟩ := H.unopened_of_ask hs hA hm
  have hU := H.unopened hl
  have hasked : (Chronicle.account i (⟨i, now, cache, .starts (.send r)⟩ :: h)).asked = some r := by
    rw [show Chronicle.account i _ = (h.account i).step _ from Chronicle.account_same _ h]
    simp [Account.step, hr]
  refine ⟨Chronicle.forall_account_cons H.coherent ((H.coherent i).start fun r he hr => ?_),
    fun _ => ⟨hU.cache, ?_, .inr ⟨i, hreq ▸ hasked, ?_⟩⟩, fun x hx => ?_⟩
  · simp [hm.held]
  · exact fun j => (Terms.gave_cons (fun _ => rfl) j).trans (hU.gave j)
  · rcases hU.count with ⟨hn, h0⟩ | ⟨j, hj, h1⟩
    · simp [Chronicle.exchanges, Chronicle.startsExchange, hr, hn i, h0]
    · -- there is no other holder, so the request is that of the exchange under way
      have hji : j = i := (hs i cached hm.held).2 j ((H.coherent j).asked (by simp [hj]))
      subst hji
      simp [Chronicle.exchanges, Chronicle.startsExchange, hj, hreq, h1]
  · rw [firstLeft_starts, hl] at hx
    contradiction

theorem start (H : Shared c cache h) (hs : h.Sole cache) (hA : h.firstLeft ≠ some none) {e : Effect}
    (hp : ((Terms.keeping c).conduct c).Permits (((Terms.keeping c).conduct c).state i h) e) :
    Shared c cache (⟨i, now, cache, .starts e⟩ :: h) := by
  by_cases he : ∃ r, e = .send r ∧ r.asksForToken = true
  · obtain ⟨r, rfl, hr⟩ := he
    obtain ⟨cached, g, hm⟩ := hp.2 hr
    rw [Conduct.state_fst] at hm
    exact H.ask hs hA hr hm
  · have he' (r : Http.Request) (h : e = .send r) : r.asksForToken = false :=
      Bool.eq_false_iff.2 fun hr => he ⟨r, h, hr⟩
    refine H.keep ((H.coherent i).start fun r h hr => ?_) (fun _ => rfl)
      (Account.asked_starts _ he') (firstLeft_starts e) (exchanges_starts he')
    exact absurd hr (by simp [he' r h])

/-- The first task that gives the cache back has got a token and leaves it there. -/
theorem release_first (H : Shared c cache h) (hs : h.Sole cache) {y : Option Token}
    (hm : (Terms.keeping c).MayRelease (h.account i)
      (((Terms.keeping c).conduct c).state i h).2 y) (hl : h.firstLeft = none) (hy : y ≠ none)
    (u : Unit) : Settled c y y (⟨i, now, cache, .ends (.release y) u⟩ :: h) := by
  have hU := H.unopened hl
  cases hm with
  | same hx _ => exact absurd ((hs i y hx).1.trans hU.cache) hy
  | dropped _ _ hd => exact hd.elim
  | @new t ho =>
    have hasks : (h.account i).asked ≠ none := (H.coherent i).obtained (by simp [ho])
    obtain ⟨x, hx⟩ := Option.ne_none_iff_exists'.1 ((H.coherent i).asked hasks)
    refine ⟨rfl, fun j z hz => ?_, Chronicle.asked_release H.coherent hs hx u,
      hU.count_of_asks hasks⟩
    by_cases hij : i = j
    · subst hij
      rw [show Conduct.state _ i _ = _ from
        ((Terms.keeping c).conduct c).state_same ⟨i, now, cache, _⟩ h] at hz
      exact (Option.some.inj hz).symm
    · rw [Conduct.state_other (o := ⟨i, now, cache, _⟩) _ hij, hU.gave j] at hz
      contradiction

/-- All others find that token, and leave it where it is. -/
theorem release_later (H : Shared c cache h) (hs : h.Sole cache) {x y : Option Token}
    (hm : (Terms.keeping c).MayRelease (h.account i)
      (((Terms.keeping c).conduct c).state i h).2 y) (hl : h.firstLeft = some x) (u : Unit) :
    Settled c y x (⟨i, now, cache, .ends (.release y) u⟩ :: h) := by
  have hS := H.settled x hl
  cases hm with
  | new ho => exact absurd (hS.asked i) ((H.coherent i).obtained (by simp [ho]))
  | dropped _ _ hd => exact hd.elim
  | same hy _ =>
    have hyx : y = x := (hs i y hy).1.trans hS.cache
    refine ⟨hyx, ?_, Chronicle.forall_account_cons (o := ⟨i, now, cache, _⟩)
      (P := fun _ a => a.asked = none) hS.asked rfl, hS.count⟩
    refine ((Terms.keeping c).conduct c).forall_state_cons (o := ⟨i, now, cache, _⟩)
      (P := fun _ s => ∀ z, s.2.gave = some z → z = x) hS.gave ?_
    intro z hz
    rw [← Option.some.inj hz]
    exact hyx

theorem count_le (H : Shared c cache h) : h.exchanges ≤ 1 := by
  cases hl : h.firstLeft with
  | none =>
    rcases (H.unopened hl).count with ⟨_, h0⟩ | ⟨_, _, h1⟩
    · exact h0 ▸ Nat.zero_le 1
    · exact Nat.le_of_eq h1
  | some x => exact Nat.le_of_eq (H.settled x hl).count

/-- A token found in the cache is the one that the first task has left. -/
theorem lasts (H : Shared c cache h) (hs : h.Sole cache) {d : Deed}
    (hA : Chronicle.FirstLasts c w (⟨i, now, cache, d⟩ :: h)) (t : Token)
    (ht : (h.account i).held = some (some t)) :
    t.outlives (w.timeOfDay now) c.tokenMargin = true := by
  have hc : cache = some t := ((hs i _ ht).1).symm
  cases hl : h.firstLeft with
  | none => exact absurd ((H.unopened hl).cache.symm.trans hc) nofun
  | some y =>
    rw [← (H.settled y hl).cache, hc] at hl
    exact (Chronicle.every_cons.1 hA.lasts).1 t hl

theorem finish (H : Shared c cache h) (hs : h.Sole cache) {e : Effect} {x : e.Answer}
    {s₀ : Account × Notes}
    (hs₀ : ((Terms.keeping c).conduct c).state i h =
      ((Terms.keeping c).conduct c).step s₀ (.starts e))
    (hp : ((Terms.keeping c).conduct c).Permits s₀ e)
    (hnone : e = .acquire → ∀ j, (h.account j).held = none) (hx : w.Answers cache now e x)
    (hA : Chronicle.FirstLasts c w (⟨i, now, cache, .ends e x⟩ :: h)) :
    Shared c (e.leaving cache) (⟨i, now, cache, .ends e x⟩ :: h) := by
  have hcoh : ((h.account i).step (.ends e x)).Coherent c fun _ => True := by
    refine (H.coherent i).finish ?_ hx fun t ht _ => H.lasts hs hA t ht
    rintro r rfl hr
    rw [← Conduct.state_fst ((Terms.keeping c).conduct c), hs₀]
    simp [Conduct.step, Account.step, hr]
  by_cases he : ∃ y, e = .release y
  · obtain ⟨y, rfl⟩ := he
    have hm : (Terms.keeping c).MayRelease (h.account i)
        (((Terms.keeping c).conduct c).state i h).2 y := by
      rw [← Conduct.state_fst ((Terms.keeping c).conduct c), hs₀]
      exact hp.2
    cases hl : h.firstLeft with
    | none =>
      have hy : Chronicle.firstLeft (⟨i, now, cache, .ends (.release y) x⟩ :: h) = some y := by
        simp [Chronicle.firstLeft, hl]
      have hyields := hA.yields
      rw [hy] at hyields
      refine ⟨Chronicle.forall_account_cons H.coherent hcoh, fun hl' => ?_, fun z hz => ?_⟩
      · rw [hy] at hl'
        contradiction
      · rw [hy] at hz
        cases hz
        exact H.release_first hs hm hl (fun h => hyields (congrArg some h)) x
    | some z =>
      have hz : Chronicle.firstLeft (⟨i, now, cache, .ends (.release y) x⟩ :: h) = some z := by
        simp [Chronicle.firstLeft, hl]
      refine ⟨Chronicle.forall_account_cons H.coherent hcoh, fun hl' => ?_, fun z' hz' => ?_⟩
      · rw [hz] at hl'
        contradiction
      · rw [hz] at hz'
        cases hz'
        exact H.release_later hs hm hl x
  · have he' (y : Option Token) : e ≠ .release y := fun h => he ⟨y, h⟩
    rw [Effect.leaving_of_ne he']
    exact H.keep hcoh (Notes.gave_ends x he')
      (Account.asked_ends x he' fun ha => (H.coherent i).asked_of_held (hnone ha i))
      (firstLeft_ends x he') rfl

end Shared

theorem upholds_shared {σ : Type} (c : Config) (w : World σ) :
    ((Terms.keeping c).conduct c).Upholds w False (Chronicle.FirstLasts c w)
      (fun cache _ h => Shared c cache h) where
  start H hs hp hA := H.start hs (Chronicle.firstLasts_of_cons _ _ hA).yields hp
  finish {cache now h i e x s₀} H hs hs₀ hp hnone hx hA := by
    refine ⟨?_, H.finish hs hs₀ hp hnone hx hA⟩
    cases e with
    | timeOfDay =>
      intro t ht
      rw [Conduct.state_fst] at ht
      rw [show x = w.timeOfDay now from hx]
      exact H.lasts hs hA t ht
    | _ => trivial
  leave hc := hc.elim
  pass H _ _ := H

/-! ### What tasks can rely on -/

variable {σ : Type}

/-- Tasks that get a token at the same time, when none is given up and the first one to give the
cache back leaves a token in it that lasts. -/
theorem sound_of_gets (c : Config) {w : World σ} (hcache : w.cache = none) (hline : w.line = [])
    {s : Scene σ (Except Failure Token)} {h : Chronicle}
    (H : Scene.Reach ⟨(· = TokenCache.get c), False⟩ w s h) (hA : h.FirstLasts c w) :
    ((Terms.keeping c).conduct c).Sound w False
      (fun s r => ∃ x, s.2.gave = some x ∧ ∀ t, x = some t → r = .ok t)
      (fun cache _ h => Shared c cache h) s h := by
  refine Conduct.sound_of_reach (upholds_shared c w) Chronicle.firstLasts_of_cons ?_ hline ?_ H hA
  · rintro p rfl
    exact (Terms.obeys_get {}).mono fun s r h => h.left
  · refine ⟨fun _ => .blank, fun _ => ⟨hcache, fun _ => rfl, .inl ⟨fun _ => rfl, rfl⟩⟩, ?_⟩
    intro x hx
    contradiction

/-- Whatever tasks do with the cache, in any order and given up anywhere: at most one exchange is
under way, it was started in need, and the cache holds nothing but tokens that were obtained. Each
request for a token is made where no token will do at that moment, if the time of day never goes
back. When all that tasks do is to get a token, and the first one to give the cache back leaves one
that lasts, there is one exchange, no more, and all tasks get that token. -/
theorem cache_custody (c : Config) (w : World σ) (hcache : w.cache = none) (hline : w.line = []) :
    (∀ {α : Type} {s : Scene σ α} {h : Chronicle}, Scene.Reach ⟨UsesCache c, True⟩ w s h →
      (∀ i j, h.Exchanging i → h.Exchanging j → i = j) ∧ h.Every (AsksInNeed c w) ∧
        (w.Forward → h.Every (AsksWhileUnusable c w)) ∧
        ∀ t, s.world.cache = some t → t ∈ h.tokens) ∧
    ∀ {s : Scene σ (Except Failure Token)} {h : Chronicle},
      Scene.Reach ⟨(· = TokenCache.get c), False⟩ w s h → h.FirstLasts c w →
      h.exchanges ≤ 1 ∧
      (∀ i r, s.result? i = some r → ∃ t, h.firstLeft = some (some t) ∧ r = .ok t) ∧
      Acc Scene.Next s ∧
      (s.AtRest → s.actors ≠ [] → h.exchanges = 1 ∧
        ∃ t, ∀ i, i < s.actors.length → s.result? i = some (.ok t)) := by
  constructor
  · intro α s h H
    have hS : (Terms.free.conduct c).Sound w True (fun _ _ => True) (Custody c w) s h := by
      refine Conduct.sound_of_reach (upholds_custody True fun _ => True) (fun _ _ h => h) ?_ hline
        ?_ H trivial
      · exact fun p hp => (hp.obeys {}).mono fun s _ hs => ⟨hs, trivial⟩
      · exact ⟨by simp [hcache], fun _ => .blank, fun _ _ => nofun, Chronicle.every_nil _⟩
    refine ⟨fun i j hi hj => ?_, hS.law.need, fun hw o before ho => ?_, hS.law.cached⟩
    · obtain ⟨x, hx⟩ := Option.ne_none_iff_exists'.1 ((hS.law.dated j).holding hj)
      exact (hS.sole j x hx).2 i ((hS.law.dated i).holding hi)
    · exact (hS.law.need o before ho).whileUnusable hw
  · intro s h H hA
    have hS := sound_of_gets c hcache hline H hA
    -- whoever has a result has given the cache back, after the first task or as the first
    have hresult (i : Nat) (r : Except Failure Token) (hr : s.result? i = some r) :
        ∃ t, h.firstLeft = some (some t) ∧ r = .ok t := by
      obtain ⟨y, hy, ht⟩ := hS.result hr
      cases hl : h.firstLeft with
      | none => exact absurd (hy.symm.trans ((hS.law.unopened hl).gave i)) nofun
      | some x =>
        obtain rfl : y = x := (hS.law.settled x hl).gave i y hy
        cases y with
        | none => exact absurd hl hA.yields
        | some t => exact ⟨t, rfl, ht t rfl⟩
    refine ⟨hS.law.count_le, hresult, Scene.acc_next s, fun hrest hne => ?_⟩
    have hover := hS.over hrest
    obtain ⟨r, hr⟩ := hS.exists_result id hover (List.length_pos_iff.2 hne)
    obtain ⟨t, hl, _⟩ := hresult 0 r hr
    refine ⟨(hS.law.settled _ hl).count, t, fun i hi => ?_⟩
    obtain ⟨r', hr'⟩ := hS.exists_result id hover hi
    obtain ⟨t', hl', rfl⟩ := hresult i r' hr'
    rw [hl] at hl'
    cases hl'
    exact hr'

/-- Two tasks in turns: the second one waits in line while the first one gets a token. -/
def Scene.twoGets : List Scene.Move :=
  [.start 0, .start 1, .finish 0, .start 0, .finish 0, .start 0, .finish 0, .start 0, .finish 0,
    .start 0, .finish 0, .finish 1, .start 1, .finish 1, .start 1, .finish 1]

theorem two_gets_share_token :
    ∃ (s : Scene Script (Except Failure Token)) (h : Chronicle),
      Scene.Reach ⟨(· = TokenCache.get .plain), False⟩ (World.scripted (.alwaysToken "a")) s h ∧
      h.FirstLasts .plain (World.scripted (.alwaysToken "a")) ∧
      h.Every (AsksInNeed .plain (World.scripted (.alwaysToken "a"))) ∧
      h.Every (AsksWhileUnusable .plain (World.scripted (.alwaysToken "a"))) ∧
      h.exchanges = 1 ∧ ∃ t, s.result? 0 = some (.ok t) ∧ s.result? 1 = some (.ok t) := by
  let w := World.scripted (.alwaysToken "a")
  let callers := List.replicate 2 (TokenCache.get .plain)
  have hall : (Scene.play? Scene.twoGets (⟨[] ++ callers.map .ofProgram, w⟩, [])).any (fun r =>
      decide (r.2.FirstLasts .plain w ∧ r.1.Over ∧ r.1.actors.length = 2)) = true := by
    decide +kernel
  obtain ⟨⟨s, h⟩, hp, hr⟩ := Option.any_eq_true _ _ |>.1 hall
  obtain ⟨hlasts, hover, hlength⟩ := of_decide_eq_true hr
  change s.actors.length = 2 at hlength
  have H : Scene.Reach ⟨(· = TokenCache.get .plain), False⟩ w s h :=
    Scene.reach_play? (Scene.reach_enter .opening fun p hp => List.eq_of_mem_replicate hp) hp
  have Hall : Scene.Reach ⟨UsesCache .plain, True⟩ w s h :=
    H.mono (fun p hp => hp ▸ UsesCache.get_only .plain) False.elim
  obtain ⟨_, hneed, hunusable, _⟩ := (cache_custody .plain w rfl rfl).1 Hall
  obtain ⟨_, _, _, hrest⟩ := (cache_custody .plain w rfl rfl).2 H hlasts
  have hforward : w.Forward := fun _ _ _ => Int.le_refl _
  obtain ⟨hone, t, ht⟩ := hrest (Scene.atRest_of_over hover) fun hn => by simp [hn] at hlength
  exact ⟨s, h, H, hlasts, hneed, hunusable hforward, hone, t, ht 0 (by omega), ht 1 (by omega)⟩

/-- A server that refuses refresh tokens, and a time of day that is an hour ahead for the third
second. -/
def World.setBack : World Script :=
  { World.scripted {
      tokenReplies := [.token "first" 3600, .ofError 400 "unknown"]
      delay := some (.ofSeconds 1) } with
    timeOfDay := fun t =>
      if t / Duration.nanosPerSecond = 2 then ⟨3600 * 10 ^ 9, by decide⟩ else .epoch }

/-- What happened last is that an exchange was started with a token in the cache that would do. -/
def Chronicle.startsUnneeded {σ : Type} (c : Config) (w : World σ) : Chronicle → Bool
  | o :: before => startsExchange o before &&
      o.cache.any fun t => t.outlives (w.timeOfDay o.time) c.tokenMargin
  | [] => false

/-- No exchange should be started while there is a token that will do, but one can be: a task finds
that the cached token has come to its end and has its refresh token refused, and before that the
time of day is set back. -/
theorem starts_unneeded_of_setBack :
    World.setBack.cache = none ∧ World.setBack.line = [] ∧
      ∃ (s : Scene Script (Except Failure Token)) (h : Chronicle),
        Scene.Reach ⟨UsesCache .plain, True⟩ .setBack s h ∧
        ∃ o before t, o :: before <:+ h ∧ Chronicle.startsExchange o before = true ∧
          o.cache = some t ∧
          t.outlives (World.setBack.timeOfDay o.time) Config.plain.tokenMargin = true := by
  let turn (i : Nat) : List (Cue Unit) := [.move (.start i), .move (.finish i)]
  let sending (i t : Nat) : List (Cue Unit) :=
    [.move (.start i), .move (.pass t), .move (.finish i)]
  let first : List (Cue Unit) :=
    .enter () :: (turn 0 ++ turn 0 ++ sending 0 1000000000 ++ turn 0 ++ turn 0)
  let second : List (Cue Unit) :=
    [.move (.pass 2000000000), .enter ()] ++
      turn 1 ++ turn 1 ++ turn 1 ++ sending 1 3000000000 ++ turn 1 ++ [.move (.start 1)]
  let program (_ : Unit) : Program (Except Failure Token) := TokenCache.get .plain
  have hall : (Scene.session? program (first ++ second) (⟨[], .setBack⟩, [])).any (fun p =>
      p.2.startsUnneeded .plain .setBack) = true := by
    decide +kernel
  obtain ⟨⟨s, h⟩, hs, hlast⟩ := Option.any_eq_true _ _ |>.1 hall
  have H : Scene.Reach ⟨UsesCache .plain, True⟩ .setBack s h := by
    refine (Scene.reach_session? .opening hs).mono ?_ id
    rintro _ ⟨_, rfl⟩
    exact .get_only .plain
  cases h with
  | nil => contradiction
  | cons o before =>
    rw [Chronicle.startsUnneeded, Bool.and_eq_true, Option.any_eq_true] at hlast
    obtain ⟨hstarts, t, ht, hdoes⟩ := hlast
    exact ⟨rfl, rfl, s, _, H, o, before, t, List.suffix_refl _, hstarts, ht, hdoes⟩

end CloudClient
