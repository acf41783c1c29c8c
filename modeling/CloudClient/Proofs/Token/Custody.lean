import CloudClient.Proofs.Machine.Schedule
import CloudClient.Proofs.Token.Terms

/-!
The custody of the token cache, whatever tasks use it in whatever order and wherever they are given
up: one task at a time asks for a token, and only when it has found that there is none that will do;
and every token in the cache came back from the server in answer to such a request. Who asks once
more does not look again at the time of day: that the cached token still does not do is so only
while time goes forward.
-/

namespace CloudClient

/-- Programs that use the cache by its four functions only, and send no request without a token
themselves. -/
inductive UsesCache (c : Config) {α : Type} : Program α → Prop where
  | done (a : α) : UsesCache c (.done a)
  | get {f : Except Failure Token → Program α} :
      (∀ r, UsesCache c (f r)) → UsesCache c (TokenCache.get c >>= f)
  | peek {f : Option Token → Program α} :
      (∀ r, UsesCache c (f r)) → UsesCache c (TokenCache.peek >>= f)
  | clear {f : Unit → Program α} :
      (∀ r, UsesCache c (f r)) → UsesCache c (TokenCache.clear >>= f)
  | discard (accessToken : String) {f : Unit → Program α} :
      (∀ r, UsesCache c (f r)) → UsesCache c (TokenCache.discard accessToken >>= f)
  | send {r : Http.Request} {k : Reply → Program α} :
      r.asksForToken = false → (∀ x, UsesCache c (k x)) → UsesCache c (.ask (.send r) k)
  | sleep (d : Duration) {k : Unit → Program α} :
      (∀ x, UsesCache c (k x)) → UsesCache c (.ask (.sleep d) k)
  | clock {k : Nat → Program α} : (∀ x, UsesCache c (k x)) → UsesCache c (.ask .clock k)
  | timeOfDay {k : Timestamp → Program α} :
      (∀ x, UsesCache c (k x)) → UsesCache c (.ask .timeOfDay k)
  | sample {k : Binary64 → Program α} : (∀ x, UsesCache c (k x)) → UsesCache c (.ask .sample k)

namespace UsesCache

variable {c : Config} {α β : Type}

theorem bind {p : Program α} {f : α → Program β} (h : UsesCache c p) (hf : ∀ a, UsesCache c (f a)) :
    UsesCache c (p >>= f) := by
  induction h with
  | done a => exact hf a
  | get _ ih =>
    rw [Program.bind_assoc]
    exact .get ih
  | peek _ ih =>
    rw [Program.bind_assoc]
    exact .peek ih
  | clear _ ih =>
    rw [Program.bind_assoc]
    exact .clear ih
  | discard accessToken _ ih =>
    rw [Program.bind_assoc]
    exact .discard accessToken ih
  | send hr _ ih => exact .send hr ih
  | sleep d _ ih => exact .sleep d ih
  | clock _ ih => exact .clock ih
  | timeOfDay _ ih => exact .timeOfDay ih
  | sample _ ih => exact .sample ih

theorem ask (p : RetryPolicy) (q : Schedule) (started : Nat) (hint : Option Duration) :
    UsesCache c (q.ask p started hint) := by
  cases hint with
  | some d => exact .clock fun _ => .done _
  | none => exact .sample fun _ => .clock fun _ => .done _

theorem repeatFrom {p : RetryPolicy} {again : β → Error → Bool}
    {attempt : β → Program (Except Failure α × β)} (h : ∀ x, UsesCache c (attempt x))
    (started left : Nat) (q : Schedule) (x : β) :
    UsesCache c (Program.repeatFrom p again attempt started left q x) := by
  induction left generalizing q x with
  | zero => exact h x
  | succ left ih =>
    rw [Program.repeatFrom]
    refine (h x).bind ?_
    rintro ⟨(e | _) | a, y⟩
    · dsimp only
      split
      · refine (ask p q started e.wait?).bind ?_
        rintro ⟨verdict, q'⟩
        cases verdict with
        | stop => exact .done _
        | overflow => exact .done _
        | wait d => exact .sleep d fun _ => ih q' y
      · exact .done _
    · exact .done _
    · exact .done _

theorem repeating {p : RetryPolicy} {again : β → Error → Bool}
    {attempt : β → Program (Except Failure α × β)} (h : ∀ x, UsesCache c (attempt x)) (x : β) :
    UsesCache c (Program.repeating p again attempt x) :=
  .clock fun _ => repeatFrom h _ _ _ _

theorem get_only (c : Config) : UsesCache c (TokenCache.get c) := by
  rw [← Program.bind_done (TokenCache.get c)]
  exact .get fun r => .done r

end UsesCache

namespace Terms

/-- Nothing can be counted on, and whoever has the cache may empty it. -/
def free : Terms where
  drops _ _ := True
  found _ _ := True
  replies _ _ := True
  reads _ _ := True

end Terms

theorem UsesCache.obeys {c : Config} {α : Type} {p : Program α} (h : UsesCache c p) (n : Notes) :
    (Terms.free.conduct c).Obeys (fun s _ => s.1 = {}) p ({}, n) := by
  induction h generalizing n with
  | done a => rfl
  | get _ ih =>
    refine (Terms.obeys_get n).bind ?_
    rintro s (f | t) hs
    · obtain ⟨cached, rfl, _⟩ := hs
      exact ih _ _
    · obtain ⟨rfl, _⟩ := hs
      exact ih _ _
  | peek _ ih =>
    refine (Terms.obeys_peek n).bind ?_
    rintro ⟨_, n'⟩ r rfl
    exact ih r n'
  | clear _ ih =>
    refine (Terms.obeys_clear (fun _ _ => trivial) n).bind ?_
    rintro ⟨_, n'⟩ r rfl
    exact ih r n'
  | discard accessToken _ ih =>
    refine (Terms.obeys_discard fun _ _ => trivial).bind ?_
    rintro s r ⟨x, rfl, _⟩
    exact ih r _
  | send hr _ ih =>
    refine ⟨⟨trivial, fun ha => absurd ha (by simp [hr])⟩, fun x _ => ?_⟩
    have hafter : (Terms.free.conduct c).after ({}, n) (.send _) x =
        ({}, n.step (.ends (.send _) x)) := by
      simp only [Conduct.after, Conduct.step, Account.step, hr, Terms.conduct]
      rfl
    rw [hafter]
    exact ih x _
  | sleep d _ ih => exact ⟨⟨trivial, trivial⟩, fun x _ => ih x n⟩
  | clock _ ih => exact ⟨⟨trivial, trivial⟩, fun x _ => ih x n⟩
  | timeOfDay _ ih => exact ⟨⟨trivial, trivial⟩, fun x _ => ih x n⟩
  | sample _ ih => exact ⟨⟨trivial, trivial⟩, fun x _ => ih x n⟩

/-! ### The laws of custody -/

theorem Token.outlives_of_le {t : Token} {now later : Timestamp} {margin : Duration}
    (h : now.nanos ≤ later.nanos) (ht : t.outlives now margin = false) :
    t.outlives later margin = false := by
  unfold outlives at ht ⊢
  split
  · rename_i deadline hd
    rw [hd] at ht
    refine decide_eq_false fun hl => of_decide_eq_false ht ?_
    exact Int.lt_of_le_of_lt h hl
  · rfl

/-- The time of day never goes back. -/
def World.Forward {σ : Type} (w : World σ) : Prop :=
  ∀ s t, s ≤ t → (w.timeOfDay s).nanos ≤ (w.timeOfDay t).nanos

namespace Chronicle

/-- When a task first asked for a token, of the time for which it has had the cache. -/
def firstAsked? (i : Nat) : Chronicle → Option Nat
  | [] => none
  | o :: h =>
    if (account i (o :: h)).asked = none then none else (firstAsked? i h).or (some o.time)

variable {i : Nat} {o : Occurrence} {h : Chronicle}

theorem firstAsked?_of_unasked (ha : (account i h).asked = none) : firstAsked? i h = none := by
  cases h with
  | nil => rfl
  | cons o h => exact if_pos ha

theorem firstAsked?_first (ha : (account i h).asked = none)
    (ha' : (account i (o :: h)).asked ≠ none) : firstAsked? i (o :: h) = some o.time := by
  rw [firstAsked?, if_neg ha', firstAsked?_of_unasked ha, Option.none_or]

theorem exists_firstAsked? (ha : (account i h).asked ≠ none) : ∃ t, firstAsked? i h = some t := by
  cases h with
  | nil => exact absurd rfl ha
  | cons o h =>
    rw [firstAsked?, if_neg ha]
    cases firstAsked? i h <;> exact ⟨_, rfl⟩

theorem firstAsked?_again (ha : (account i h).asked ≠ none)
    (ha' : (account i (o :: h)).asked ≠ none) : firstAsked? i (o :: h) = firstAsked? i h := by
  obtain ⟨t, ht⟩ := exists_firstAsked? ha
  rw [firstAsked?, if_neg ha', ht, Option.some_or]

end Chronicle

/-- A token is asked for where there is none in the cache, or where the one in there did not do when
the task first asked, of the time for which it has had the cache. To ask once more, after a failure
or a refusal, counts on the look at the time of day before that. -/
def AsksInNeed {σ : Type} (c : Config) (w : World σ) (o : Occurrence) (before : Chronicle) : Prop :=
  ∀ r, o.deed = .starts (.send r) → r.asksForToken = true →
    ∃ first, Chronicle.firstAsked? o.task (o :: before) = some first ∧ first ≤ o.time ∧
      ((before.account o.task).asked = none → first = o.time) ∧
      ∀ t, o.cache = some t → t.outlives (w.timeOfDay first) c.tokenMargin = false

/-- A token is asked for where there is none in the cache that will do at that moment. -/
def AsksWhileUnusable {σ : Type} (c : Config) (w : World σ) (o : Occurrence) (_ : Chronicle) :
    Prop :=
  ∀ r t, o.deed = .starts (.send r) → r.asksForToken = true → o.cache = some t →
    t.outlives (w.timeOfDay o.time) c.tokenMargin = false

/-- While time goes forward, what did not do before does not do now. -/
theorem AsksInNeed.whileUnusable {σ : Type} {c : Config} {w : World σ} {o : Occurrence}
    {h : Chronicle} (H : AsksInNeed c w o h) (hw : w.Forward) : AsksWhileUnusable c w o h := by
  intro r t hd hr ht
  obtain ⟨first, _, hle, _, hneed⟩ := H r hd hr
  exact Token.outlives_of_le (hw first o.time hle) (hneed t ht)

/-- What the account of a task says about the time it is. -/
structure Account.Dated {σ : Type} (w : World σ) (now : Nat) (a : Account) : Prop where
  holding : a.asked ≠ none → a.held ≠ none
  checked : ∀ n, a.checked = some n → n = w.timeOfDay now

namespace Account.Dated

variable {σ : Type} {w : World σ} {now : Nat} {a : Account}

theorem blank : ({} : Account).Dated w now :=
  ⟨absurd rfl, by simp⟩

theorem rest (h : a.Dated w now) : ({ a with checked := none } : Account).Dated w now :=
  ⟨h.holding, by simp⟩

theorem start (h : a.Dated w now) {e : Effect}
    (he : ∀ r, e = .send r → r.asksForToken = true → a.held ≠ none) :
    (a.step (.starts e)).Dated w now := by
  cases e with
  | send r =>
    simp only [Account.step]
    split
    · rename_i hr
      exact ⟨fun _ => he r rfl hr, by simp⟩
    · exact h.rest
  | sleep d => exact h.rest
  | acquire => exact h.rest
  | _ => exact h

theorem finish (h : a.Dated w now) {cache : Option Token} {e : Effect} {x : e.Answer}
    (hx : w.Answers cache now e x) : (a.step (.ends e x)).Dated w now := by
  cases e with
  | send r =>
    simp only [Account.step]
    split
    · exact ⟨h.holding, h.checked⟩
    · exact h
  | acquire => exact ⟨absurd rfl, by simp [Account.step]⟩
  | release x => exact blank
  | timeOfDay =>
    simp only [Account.step, Account.readsTime]
    split
    · exact h
    · exact ⟨h.holding, h.checked⟩
    · refine ⟨h.holding, fun n hn => ?_⟩
      rw [← Option.some.inj hn]
      exact hx
  | _ => exact h

end Account.Dated

/-- The token that a task has found did not do when the task first asked for one. -/
def FoundUnusable {σ : Type} (c : Config) (w : World σ) (now : Nat) (h : Chronicle) (i : Nat) :
    Prop :=
  ∀ first, h.firstAsked? i = some first → first ≤ now ∧
    ∀ t, (h.account i).held = some (some t) →
      t.outlives (w.timeOfDay first) c.tokenMargin = false

/-- A deed leaves the task with what it found, or the task asks for the first time. -/
theorem foundUnusable_cons {σ : Type} {c : Config} {w : World σ} {o : Occurrence} {h : Chronicle}
    (H : ∀ i, FoundUnusable c w o.time h i)
    (hkept : ((h.account o.task).step o.deed).asked ≠ none → (h.account o.task).asked ≠ none →
      ((h.account o.task).step o.deed).held = (h.account o.task).held)
    (hfirst : ((h.account o.task).step o.deed).asked ≠ none → (h.account o.task).asked = none →
      ∀ t, ((h.account o.task).step o.deed).held = some (some t) →
        t.outlives (w.timeOfDay o.time) c.tokenMargin = false) (i : Nat) :
    FoundUnusable c w o.time (o :: h) i := by
  intro first hwhen
  have hasked : (Chronicle.account i (o :: h)).asked ≠ none := fun hn => by
    rw [Chronicle.firstAsked?_of_unasked hn] at hwhen
    contradiction
  by_cases hi : o.task = i
  · subst hi
    rw [Chronicle.account_same] at hasked ⊢
    by_cases ha : (h.account o.task).asked = none
    · rw [Chronicle.firstAsked?_first ha (by rwa [Chronicle.account_same])] at hwhen
      cases hwhen
      exact ⟨Nat.le_refl _, hfirst hasked ha⟩
    · rw [Chronicle.firstAsked?_again ha (by rwa [Chronicle.account_same])] at hwhen
      obtain ⟨hle, hall⟩ := H o.task first hwhen
      exact ⟨hle, fun t ht => hall t ((hkept hasked ha).symm.trans ht)⟩
  · have hother := Chronicle.account_other hi h
    rw [Chronicle.firstAsked?_again (by rwa [← hother]) hasked] at hwhen
    rw [hother]
    exact H i first hwhen

theorem Account.checked_of_waits (a : Account) {e : Effect} (he : e.waits = true) :
    (a.step (.starts e)).checked = none := by
  cases e with
  | send r =>
    simp only [Account.step]
    split <;> rfl
  | sleep d => rfl
  | acquire => rfl
  | _ => contradiction

theorem asksInNeed_of_ne {σ : Type} {c : Config} {w : World σ} {o : Occurrence} {h : Chronicle}
    (ho : ∀ r, o.deed ≠ .starts (.send r)) : AsksInNeed c w o h :=
  fun r hd => absurd hd (ho r)

structure Custody {σ : Type} (c : Config) (w : World σ) (cache : Option Token) (now : Nat)
    (h : Chronicle) : Prop where
  cached : ∀ t, cache = some t → t ∈ h.tokens
  dated : ∀ i, (h.account i).Dated w now
  found : ∀ i, FoundUnusable c w now h i
  need : h.Every (AsksInNeed c w)

variable {σ : Type} {c : Config} {w : World σ}

theorem custody_start {cache : Option Token} {now i : Nat} {h : Chronicle} {e : Effect}
    (H : Custody c w cache now h) (hs : h.Sole cache)
    (hp : (Terms.free.conduct c).Permits ((Terms.free.conduct c).state i h) e) :
    Custody c w cache now (⟨i, now, cache, .starts e⟩ :: h) := by
  have hask (r : Http.Request) (he : e = .send r) (hr : r.asksForToken = true) :
      ∃ cached g, (h.account i).MayAsk c r cached g := by
    subst he
    rw [← Conduct.state_fst (Terms.free.conduct c)]
    exact hp.2 hr
  have hheld := (h.account i).held_starts e
  have hfound : ∀ j, FoundUnusable c w now (⟨i, now, cache, .starts e⟩ :: h) j := by
    refine foundUnusable_cons (o := ⟨i, now, cache, .starts e⟩) H.found (fun _ _ => hheld)
      fun ha ha' t ht => ?_
    by_cases he : ∃ r, e = .send r ∧ r.asksForToken = true
    · -- the first request follows on the look at the time of day
      obtain ⟨r, rfl, hr⟩ := he
      obtain ⟨cached, g, hm⟩ := hask r rfl hr
      rw [hheld, hm.held] at ht
      obtain ⟨n, hn, ho⟩ := hm.fresh ha' t (Option.some.inj ht)
      exact (H.dated i).checked n hn ▸ ho
    · refine absurd ?_ ha
      rw [Account.asked_starts _ fun r hr => Bool.eq_false_iff.2 fun h => he ⟨r, hr, h⟩]
      exact ha'
  refine ⟨fun t ht => Chronicle.mem_tokens_cons (H.cached t ht) _,
    Chronicle.forall_account_cons H.dated ((H.dated i).start fun r he hr => ?_), hfound,
    Chronicle.every_cons.2 ⟨?_, H.need⟩⟩
  · obtain ⟨cached, g, hm⟩ := hask r he hr
    exact Option.ne_none_iff_exists'.2 ⟨cached, hm.held⟩
  · rintro r hd hr
    cases hd
    obtain ⟨cached, g, hm⟩ := hask r rfl hr
    have hafter : Chronicle.account i (⟨i, now, cache, .starts (.send r)⟩ :: h) =
        (h.account i).step (.starts (.send r)) := Chronicle.account_same ⟨i, _, _, _⟩ h
    have hasked : (Chronicle.account i (⟨i, now, cache, .starts (.send r)⟩ :: h)).asked ≠ none := by
      simp [hafter, Account.step, hr]
    obtain ⟨first, hwhen⟩ := Chronicle.exists_firstAsked? hasked
    obtain ⟨hle, hneed⟩ := hfound i first hwhen
    refine ⟨first, hwhen, hle, fun ha => ?_, fun t ht => hneed t ?_⟩
    · rw [Chronicle.firstAsked?_first ha hasked] at hwhen
      exact (Option.some.inj hwhen).symm
    · rw [hafter, hheld, hm.held, (hs i cached hm.held).1]
      exact congrArg some ht

theorem custody_finish {cache : Option Token} {now i : Nat} {h : Chronicle} {e : Effect}
    {x : e.Answer} {s₀ : Account × Notes} (H : Custody c w cache now h) (hs : h.Sole cache)
    (hs₀ : (Terms.free.conduct c).state i h = (Terms.free.conduct c).step s₀ (.starts e))
    (hp : (Terms.free.conduct c).Permits s₀ e) (hx : w.Answers cache now e x) :
    Custody c w (e.leaving cache) now (⟨i, now, cache, .ends e x⟩ :: h) := by
  have hfound : ∀ j, FoundUnusable c w now (⟨i, now, cache, .ends e x⟩ :: h) j := by
    -- who has just taken the cache or given it back has not asked
    refine foundUnusable_cons (o := ⟨i, now, cache, .ends e x⟩) H.found (fun ha _ => ?_)
      fun ha ha' => absurd ?_ ha
    · refine Account.held_ends _ x ?_ ?_
      · rintro rfl
        exact ha rfl
      · rintro y rfl
        exact ha rfl
    · by_cases he : ∃ y, e = .release y
      · obtain ⟨y, rfl⟩ := he
        rfl
      · rw [Account.asked_ends x (fun y hy => he ⟨y, hy⟩) fun _ => ha']
        exact ha'
  refine ⟨fun t ht => ?_, Chronicle.forall_account_cons H.dated ((H.dated i).finish hx), hfound,
    Chronicle.every_cons.2 ⟨asksInNeed_of_ne (by simp), H.need⟩⟩
  refine Chronicle.mem_tokens_cons ?_ _
  cases e with
  | release y =>
    have ha : h.account i = s₀.1 := by
      rw [← Conduct.state_fst (Terms.free.conduct c), hs₀]
      rfl
    -- what is given back was found there, was obtained or is nothing
    obtain hm | hm | _ := hp.2
    · rw [← ha] at hm
      exact H.cached t ((hs i y hm).1.symm.trans ht)
    · rw [← ha] at hm
      cases ht
      exact Chronicle.mem_tokens_of_account hm
    · contradiction
  | _ => exact H.cached t ht

theorem upholds_custody (cancels : Prop) (A : Chronicle → Prop) :
    (Terms.free.conduct c).Upholds w cancels A (Custody c w) where
  start H hs hp _ := custody_start H hs hp
  finish {_ _ _ _ e _ _} H hs hs₀ hp _ hx _ := by
    refine ⟨?_, custody_finish H hs hs₀ hp hx⟩
    cases e <;> trivial
  leave {_ now h i} _ H _ := by
    refine ⟨fun t ht => Chronicle.mem_tokens_cons (H.cached t ht) _,
      Chronicle.forall_account_cons H.dated .blank, ?_,
      Chronicle.every_cons.2 ⟨asksInNeed_of_ne (by simp), H.need⟩⟩
    exact foundUnusable_cons H.found (fun ha _ => absurd rfl ha) fun ha _ => absurd rfl ha
  pass {_ _ h _} H hr hl := by
    refine ⟨H.cached, fun i => ⟨(H.dated i).holding, ?_⟩, fun i first hwhen => ?_, H.need⟩
    · have hrest : (h.account i).checked = none := by
        rw [← Conduct.state_fst (Terms.free.conduct c)]
        rcases hr i with hb | ⟨s₀, e, he, hs₀⟩
        · rw [hb]
        · rw [hs₀]
          exact Account.checked_of_waits _ he
      simp [hrest]
    · obtain ⟨hle, hall⟩ := H.found i first hwhen
      exact ⟨Nat.le_trans hle hl, hall⟩

end CloudClient
