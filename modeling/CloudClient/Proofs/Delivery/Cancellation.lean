import CloudClient.Machine.Cancel
import CloudClient.Proofs.Delivery.Outcome

/-!
Calls that are cancelled. Up to the moment at which a call is given up it does what it would have
done anyway, and from there on nothing: a wait that would end later is cut off, wherever in the call
it is made. What stays is what the events that were over by then have left, and the cache is free,
also when the call has just had it.
-/

namespace CloudClient

namespace Event

/-- What is in the cache after these events. -/
def cacheAfter (cache : Option Token) (h : List Event) : Option Token :=
  h.foldl (fun cached e => e.effect.leaving cached) cache

/-- The events that are over before this moment. -/
def endedBefore (moment : Nat) (h : List Event) : List Event :=
  h.filter (·.ended < moment)

/-- The requests that are sent before this moment. -/
def sentBefore (moment : Nat) (h : List Event) : List Sent :=
  (requests h).filter (·.time < moment)

variable {moment : Nat} {h : List Event}

theorem endedBefore_of_le (H : ∀ e ∈ h, moment ≤ e.ended) : endedBefore moment h = [] :=
  List.filter_eq_nil_iff.2 fun e he => by simpa using H e he

theorem sentBefore_of_le (H : ∀ e ∈ h, moment ≤ e.began) : sentBefore moment h = [] := by
  refine List.filter_eq_nil_iff.2 fun s hs => ?_
  obtain ⟨⟨effect, x, began, ended⟩, he, hsent⟩ := List.mem_filterMap.1 hs
  cases effect with
  | send r =>
    cases hsent
    simpa using H _ he
  | _ => cases hsent

theorem sentBefore_cons (e : Event) (he : e.began < moment) :
    sentBefore moment (e :: h) = requests [e] ++ sentBefore moment h := by
  have hfirst : (requests [e]).filter (·.time < moment) = requests [e] := by
    refine List.filter_eq_self.2 fun s hs => ?_
    obtain ⟨⟨effect, x, began, ended⟩, hmem, hsent⟩ := List.mem_filterMap.1 hs
    obtain rfl := List.mem_singleton.1 hmem
    cases effect with
    | send r =>
      cases hsent
      exact decide_eq_true he
    | _ => cases hsent
  rw [sentBefore, ← List.singleton_append, requests_append, List.filter_append, hfirst]
  rfl

end Event

namespace World

variable {σ α : Type} {w w' v : World σ}

/-- The events of a run lie between its ends. -/
theorem Runs.times {p : Program α} {h : List Event} {a : α} (H : w.Runs p h a w') :
    ∀ e ∈ h, w.now ≤ e.began ∧ w.now ≤ e.ended ∧ e.ended ≤ w'.now := by
  induction H with
  | done w a => exact List.forall_mem_nil _
  | @ask w v w' e k x h a hx H ih =>
    have hnow : w.now ≤ v.now := (later_answer? hx).now
    refine List.forall_mem_cons.2 ⟨⟨Nat.le_refl _, hnow, H.later.now⟩, fun e' he' => ?_⟩
    obtain ⟨hbegan, hended, hlast⟩ := ih e' he'
    exact ⟨Nat.le_trans hnow hbegan, Nat.le_trans hnow hended, hlast⟩

/-- What is left of a program that is given up at a moment; the history is the one that it would
have had. -/
structure CutOff (w : World σ) (h : List Event) (moment : Nat) (v : World σ) : Prop where
  now : v.now = max w.now moment
  sent : v.sent = w.sent ++ Event.sentBefore moment h
  cache : v.cache = Event.cacheAfter w.cache (Event.endedBefore moment h)
  free : v.line = []

/-! ### One effect -/

/-- The clock at the end of an effect stands where its wait was to end. -/
theorem now_answer? {e : Effect} {x : e.Answer} (h : w.answer? e = some (x, v)) :
    v.now = max w.now (w.start 0 e).2 := by
  have hnow : v.now = max (w.start 0 e).1.now (w.start 0 e).2 := (finishes_of_finish? h).now
  rwa [start_now] at hnow

/-- An effect that is over before the limit is not cut off. -/
theorem solo_ask_of_lt {limit : Nat} {e : Effect} {k : e.Answer → Program α} {x : e.Answer}
    (hx : w.answer? e = some (x, v)) (hv : v.now < limit) :
    w.solo (some limit) (.ask e k) = v.solo (some limit) (k x) := by
  have hwake : (w.start 0 e).2 < limit := by
    rw [now_answer? hx] at hv
    omega
  have hcut : (w.start 0 e).1.cutoff? (w.start 0 e).2 (some limit) = none := by
    rw [cutoff?, Option.filter_some, decide_eq_false (by omega)]
    split <;> rfl
  simp only [answer?] at hx
  simp only [solo, hcut, hx]

/-- One that is over after the limit is cut off, and has done no more than to start. -/
theorem solo_ask_of_gt {limit : Nat} {e : Effect} {k : e.Answer → Program α} {x : e.Answer}
    (hx : w.answer? e = some (x, v)) (hw : w.now < limit) (hv : limit < v.now) :
    w.solo (some limit) (.ask e k) =
      (none, { (w.start 0 e).1 with now := limit }.abandon 0) := by
  have hwake : limit < (w.start 0 e).2 := by
    rw [now_answer? hx] at hv
    omega
  have hcut : (w.start 0 e).1.cutoff? (w.start 0 e).2 (some limit) = some limit := by
    rw [cutoff?, start_now, if_neg (by omega), Option.filter_some, decide_eq_true hwake, if_pos rfl]
  simp only [solo, hcut]

theorem CutOff.cons {limit : Nat} {u : World σ} {e : Effect} {x : e.Answer} {h : List Event}
    (H : v.CutOff h limit u) (hx : w.answer? e = some (x, v)) (hv : v.now < limit) :
    w.CutOff (⟨e, x, w.now, v.now⟩ :: h) limit u := by
  have hw : w.now < limit := Nat.lt_of_le_of_lt (later_answer? hx).now hv
  have hended : Event.endedBefore limit (⟨e, x, w.now, v.now⟩ :: h) =
      ⟨e, x, w.now, v.now⟩ :: Event.endedBefore limit h :=
    List.filter_cons_of_pos (decide_eq_true hv)
  refine ⟨?_, ?_, ?_, H.free⟩
  · rw [H.now]
    omega
  · rw [H.sent, sent_answer? hx, List.append_assoc, Event.sentBefore_cons _ hw]
  · rw [H.cache, hended, cache_answer? hx]
    rfl

/-- All that an effect has done that is cut off is to start. -/
theorem cutOff_of_gt {limit : Nat} {a : Account} {e : Effect} {x : e.Answer} {h : List Event}
    (hl : w.line = a.line) (hx : w.answer? e = some (x, v)) (hw : w.now < limit)
    (hv : limit < v.now) (hlater : ∀ e' ∈ h, v.now ≤ e'.began ∧ v.now ≤ e'.ended) :
    w.CutOff (⟨e, x, w.now, v.now⟩ :: h) limit
      ({ (w.start 0 e).1 with now := limit }.abandon 0) := by
  have hunsent : Event.sentBefore limit h = [] := Event.sentBefore_of_le fun e' he' => by
    have hbegan := (hlater e' he').1
    omega
  have hunended : Event.endedBefore limit (⟨e, x, w.now, v.now⟩ :: h) = [] := by
    refine Event.endedBefore_of_le (List.forall_mem_cons.2 ⟨Nat.le_of_lt hv, fun e' he' => ?_⟩)
    have hended := (hlater e' he').2
    omega
  refine ⟨?_, ?_, ?_, ?_⟩
  · exact (Nat.max_eq_right (Nat.le_of_lt hw)).symm
  · rw [Event.sentBefore_cons _ hw, hunsent, List.append_nil, ← sent_answer? hx]
    exact (finishes_of_finish? hx).sent.symm
  · rw [hunended]
    exact start_cache w 0 e
  · -- who waits for the cache while nobody has it does not wait at all
    have hne : e ≠ .acquire := by
      rintro rfl
      rw [now_answer? hx] at hv
      change limit < max w.now w.now at hv
      omega
    change (w.start 0 e).1.line.erase 0 = []
    rw [start_line, if_neg hne, hl, Account.line]
    split <;> rfl

/-! ### Whole runs -/

end World

open World in
/-- Up to the limit a program with the cache to itself does what it would do without one. -/
theorem Conduct.Obeys.solo_until {T σ α : Type} {D : Conduct T} {post : Account × T → α → Prop}
    {p : Program α} {s : Account × T} {w w' : World σ} {h : List Event} {a : α} {limit : Nat}
    (hp : D.Obeys post p s) (hD : ∀ s e x, D.expects s e x) (hl : w.line = s.1.line)
    (H : w.Runs p h a w') (hlimit : ∀ e ∈ h, e.ended ≠ limit) (hw : w.now < limit) :
    w'.now < limit ∧ w.solo (some limit) p = (some a, w') ∨
      limit < w'.now ∧ ∃ v, w.solo (some limit) p = (none, v) ∧ w.CutOff h limit v := by
  induction H generalizing s with
  | done w a => exact .inl ⟨hw, rfl⟩
  | @ask w v w' e k x h a hx H ih =>
    obtain ⟨hv, hlater⟩ := List.forall_mem_cons.1 hlimit
    rcases Nat.lt_or_gt_of_ne hv with hv | hv
    · rw [solo_ask_of_lt hx hv]
      obtain ⟨x', v', hx', hl'⟩ := World.exists_answer? e hp.1.1 hl
      rw [hx] at hx'
      cases hx'
      rcases ih (hp.2 x (hD _ _ _)) hl' hlater hv with hdone | ⟨hlast, u, hu, hcut⟩
      · exact .inl hdone
      · exact .inr ⟨hlast, u, hu, hcut.cons hx hv⟩
    · refine .inr ⟨Nat.lt_of_lt_of_le hv H.later.now, _, solo_ask_of_gt hx hw hv, ?_⟩
      exact cutOff_of_gt hl hx hw hv fun e' he' => ⟨(H.times e' he').1, (H.times e' he').2.1⟩

/-- A moment before the start, too: then nothing is done at all. -/
theorem UsesCache.runUntil_cases {σ α : Type} {c : Config} {p : Program α} {w w' : World σ}
    {h : List Event} {a : α} {moment : Nat} (hp : UsesCache c p) (hl : w.line = [])
    (H : w.Runs p h a w') (hmoment : ∀ e ∈ h, e.began ≠ moment ∧ e.ended ≠ moment) (hh : h ≠ []) :
    w'.now < moment ∧ w.runUntil (some moment) p = (some a, w') ∨
      moment < w'.now ∧ ∃ v, w.runUntil (some moment) p = (none, v) ∧ w.CutOff h moment v := by
  by_cases hw : moment ≤ w.now
  · obtain ⟨e, he⟩ := List.exists_mem_of_ne_nil h hh
    have htimes := H.times e he
    have hne := (hmoment e he).2
    refine .inr ⟨by omega, w, if_pos (decide_eq_true hw), (Nat.max_eq_left hw).symm, ?_, ?_, hl⟩
    · rw [Event.sentBefore_of_le fun e he => Nat.le_trans hw (H.times e he).1, List.append_nil]
    · rw [Event.endedBefore_of_le fun e he => Nat.le_trans hw (H.times e he).2.1]
      rfl
  · have hrun : w.runUntil (some moment) p = w.solo (some moment) p :=
      if_neg (by simpa using hw)
    rw [hrun]
    refine (hp.obeys {}).solo_until (fun s e x => ?_) hl H (fun e he => (hmoment e he).2)
      (Nat.lt_of_not_le hw)
    cases e <;> trivial

namespace Delivery

variable {σ : Type} {c : Config} {r : Http.Request} {w w' : World σ}

theorem ne_nil_of_runs {h : List Event} {result : Except Failure Http.Response}
    (H : w.Runs (run c r) h result w') : h ≠ [] := by
  obtain ⟨_, _, h₁, h₂, rfl, H₁, _⟩ := World.runs_bind_iff.1 H
  obtain ⟨_, _, _, _, rfl, _⟩ := World.runs_ask_iff.1 H₁
  exact nofun

theorem runUntil_eq {moment : Option Nat} {result : Option (Except Failure Http.Response)}
    (H : w.runUntil moment (run c r) = (result, w')) :
    runUntil c r moment w = (orCancelled result, w') := by
  rw [runUntil, H]

end Delivery

/-- A call is given up at a moment at which nothing happens in it. If it is over before that, it has
the same result and leaves the same behind as if it could not be given up. If it would be over after
that, it has no result, which is told as such; it has sent what it would have sent by then, the
cache holds what it would have held, and nobody has the cache. -/
theorem cancelled_at_moment {σ : Type} (c : Config) (method : Http.Method) (path : String)
    (body : Option Bytes) (w : World σ) (moment : Nat) (hl : w.line = [])
    (hmoment : ∀ e ∈ w.history (Delivery.run c (Delivery.request c method path body)),
      e.began ≠ moment ∧ e.ended ≠ moment) :
    let r := Delivery.request c method path body
    let call := Delivery.run c r
    ∃ result w', w.solo none call = (some result, w') ∧
      (w'.now < moment ∧ w.runUntil (some moment) call = (some result, w') ∧
          Delivery.runUntil c r (some moment) w = (result, w') ∨
        moment < w'.now ∧ ∃ v, w.runUntil (some moment) call = (none, v) ∧
          Delivery.runUntil c r (some moment) w = (.error (.error .cancelled), v) ∧
          v.now = max w.now moment ∧
          v.sent = w.sent ++ Event.sentBefore moment (w.history call) ∧
          v.cache = Event.cacheAfter w.cache (Event.endedBefore moment (w.history call)) ∧
          v.line = []) := by
  intro r call
  obtain ⟨result, w', H⟩ := Delivery.exists_runs r hl
  refine ⟨result, w', H.solo_eq, ?_⟩
  rcases (Delivery.usesCache_run c r).runUntil_cases hl H hmoment (Delivery.ne_nil_of_runs H) with
    ⟨hlast, hdone⟩ | ⟨hlast, v, hv, hcut⟩
  · exact .inl ⟨hlast, hdone, Delivery.runUntil_eq hdone⟩
  · exact .inr ⟨hlast, v, hv, Delivery.runUntil_eq hv, hcut.now, hcut.sent, hcut.cache, hcut.free⟩

/-- A call that is given up while it gets a second token: the first one has been rejected and is
gone from the cache, which was just held for the second one. -/
theorem cancelled_at_moment_of_troubled :
    let r := Delivery.request .plain .get "/volumes" none
    let call := Delivery.run .plain r
    let moment := (Duration.ofSeconds 4).nanos
    World.troubled.line = [] ∧
      (∀ e ∈ World.troubled.history call, e.began ≠ moment ∧ e.ended ≠ moment) ∧
      (Event.sentBefore moment (World.troubled.history call)).map (·.request.asksForToken) =
        [true, false, false, true] ∧
      Event.cacheAfter World.troubled.cache
        (Event.endedBefore moment (World.troubled.history call)) = none ∧
      ∃ result w', World.troubled.solo none call = (some result, w') ∧
        (w'.now < moment ∧ World.troubled.runUntil (some moment) call = (some result, w') ∧
            Delivery.runUntil .plain r (some moment) World.troubled = (result, w') ∨
          moment < w'.now ∧ ∃ v, World.troubled.runUntil (some moment) call = (none, v) ∧
            Delivery.runUntil .plain r (some moment) World.troubled =
              (.error (.error .cancelled), v) ∧
            v.now = max World.troubled.now moment ∧
            v.sent = World.troubled.sent ++
              Event.sentBefore moment (World.troubled.history call) ∧
            v.cache = Event.cacheAfter World.troubled.cache
              (Event.endedBefore moment (World.troubled.history call)) ∧
            v.line = []) := by
  intro r call moment
  have hcut : (∀ e ∈ World.troubled.history call, e.began ≠ moment ∧ e.ended ≠ moment) ∧
      (Event.sentBefore moment (World.troubled.history call)).map (·.request.asksForToken) =
        [true, false, false, true] ∧
      Event.cacheAfter World.troubled.cache
        (Event.endedBefore moment (World.troubled.history call)) = none := by
    decide +kernel
  exact ⟨rfl, hcut.1, hcut.2.1, hcut.2.2,
    cancelled_at_moment .plain .get "/volumes" none .troubled moment rfl hcut.1⟩

end CloudClient
