import CloudClient.Proofs.Delivery.Outcome
import CloudClient.Proofs.Machine.History
import CloudClient.Proofs.Machine.Scripted
import CloudClient.Proofs.Retry.Budget
import CloudClient.Proofs.Token.Refused

/-!
Waits in seconds that a reply to a call asks for. When another request of the call follows, the next
attempt has waited for so long, unless the seconds are more than a number can tell, or the timer
cannot be set for the end of the wait and cuts it short.

Whether a wait is made shows only after the attempt that asks for it. So what is known of a history
before a round is known for every continuation in which the next attempt starts at that moment
(`minding_rounds`); an attempt has one reply at most that may ask for a wait, its last one
(`Ending`), and that one alone meets with the schedule.
-/

namespace CloudClient

open Http (Request Response)

namespace Reply

theorem asked?_of_rejects {reply : Reply} (h : reply.rejects = true) : reply.asked? = none := by
  cases reply with
  | error f => rfl
  | ok r =>
    have hs : r.status = 401 := of_decide_eq_true h
    refine asked?_of_ne ?_
    rw [hs]
    decide

theorem seconds?_of_asked? {reply : Reply} {n : Nat} (h : reply.asked? = some n)
    (hn : n < 2 ^ 64) : reply.seconds? = some n := by
  cases reply with
  | error f => contradiction
  | ok r =>
    rw [asked?] at h
    rw [seconds?]
    split at h
    · rename_i hs
      obtain ⟨value, hvalue, hdigits⟩ := Option.bind_eq_some_iff.1 h
      rw [if_pos hs, hvalue, Option.bind_some]
      exact Text.unsigned?_of_digits? hdigits hn
    · contradiction

end Reply

namespace Event

/-- When the cache was asked for. -/
def acquired? : Event → Option Nat
  | ⟨.acquire, _, began, _⟩ => some began
  | _ => none

/-- When the next attempt starts: it asks for the cache first. -/
def nextAttempt? (h : List Event) : Option Nat :=
  h.findSome? acquired?

def wait? : Event → Option Duration
  | ⟨.sleep d, _, _, _⟩ => some d
  | _ => none

/-- The wait that is made next. -/
def nextWait? (h : List Event) : Option Duration :=
  h.findSome? wait?

theorem nextAttempt?_append {h₁ : List Event} (H : World.Idle h₁) (h₂ : List Event) :
    nextAttempt? (h₁ ++ h₂) = nextAttempt? h₂ :=
  H.findSome?_append (fun _ _ _ => rfl) (fun _ _ _ => rfl) (fun _ _ _ => rfl) h₂

theorem nextWait?_append {h₁ : List Event} (H : World.Idle h₁) (h₂ : List Event) :
    nextWait? (h₁ ++ h₂) = nextWait? h₂ :=
  H.findSome?_append (fun _ _ _ => rfl) (fun _ _ _ => rfl) (fun _ _ _ => rfl) h₂

end Event

namespace Delivery

open TokenCache (Refused refused_of_unasked)

variable {σ : Type} {c : Config} {r : Request} {w w' : World σ} {h : List Event}

/-! ### The last request of an attempt -/

/-- An attempt ends without a token, or with the reply to its last request. Before that, waits are
asked for only where a refresh token is refused. -/
inductive Ending (c : Config) (w' : World σ) (result : Except Failure Response) :
    (withoutToken : Bool) → List Event → Prop where
  | noToken {before acquiring : List Event} :
      Refused c before → Event.replies acquiring = [] →
      Ending c w' result true (before ++ acquiring)
  | replied {before look : List Event} {s : Request} {x : Reply} {began : Nat}
      (withoutToken : Bool) :
      Refused c before → s.asksForToken = false → World.Idle look →
      result = conclusion (w'.timeOfDay w'.now) x →
      Ending c w' result withoutToken (before ++ ⟨.send s, x, began, w'.now⟩ :: look)

theorem Ending.of_append {result : Except Failure Response} {withoutToken : Bool}
    {before : List Event} (hb : Refused c before) (H : Ending c w' result withoutToken h) :
    Ending c w' result withoutToken (before ++ h) := by
  cases H with
  | noToken hr ha =>
    rw [← List.append_assoc]
    exact .noToken (hb.append hr) ha
  | replied _ hr hs hlook hresult =>
    rw [← List.append_assoc]
    exact .replied _ (hb.append hr) hs hlook hresult

theorem ending_of_once {o : Outcome} {x y : Progress} {result : Except Failure Response}
    (H : w.Runs (once c r) h o w') (ho : o.conclude x = (result, y)) :
    Ending c w' result y.withoutToken h := by
  rcases answered_of_runs H with ⟨f, rfl, hget⟩ | ⟨getting, look, token, v, reply, ha⟩
  · cases ho
    exact .noToken (List.forall_mem_nil _) (TokenCache.runs_get hget).1.replies
  · rw [ha.outcome, conclude_ofReply] at ho
    cases ho
    rw [ha.history]
    exact .replied _ (TokenCache.refused_of_get ha.got) (asksForToken_authorized _ _) ha.look rfl

/-- A rejection asks for no wait. -/
theorem refused_of_rejected {a : String} {e : ApiError}
    (H : w.Runs (once c r) h (.rejected a e) w') : Refused c h := by
  rcases answered_of_runs H with ⟨f, ho, _⟩ | ⟨getting, look, token, v, reply, ha⟩
  · cases ho
  · have hrejects := (rejects_of_ofReply ha.outcome.symm).1
    rw [ha.history]
    refine (TokenCache.refused_of_get ha.got).append (refused_of_unasked ?_)
    exact List.forall_mem_cons.2
      ⟨Reply.asked?_of_rejects hrejects, Event.unasked_of_idle ha.look⟩

theorem unasked_of_discard {accessToken : String} {u : Unit}
    (H : w.Runs (TokenCache.discard accessToken) h u w') : Event.Unasked h := by
  obtain ⟨_, _, h', _, rfl, H'⟩ := World.runs_ask_iff.1 H
  obtain ⟨_, _, h'', _, rfl, H''⟩ := World.runs_ask_iff.1 H'
  obtain ⟨rfl, _, _⟩ := World.runs_done_iff.1 H''
  simp [Event.Unasked, Event.asked?]

theorem ending_of_attempt {x y : Progress} {result : Except Failure Response}
    (H : w.Runs (attempt c r x) h (result, y) w') : Ending c w' result y.withoutToken h := by
  rcases attempt_cases H with
    ⟨o, H₁, ho, _⟩ | ⟨a, e, o, v, u, h₁, h₂, h₃, rfl, _, H₁, H₂, H₃, ho⟩
  · exact ending_of_once H₁ ho
  · exact ((ending_of_once H₃ ho).of_append (refused_of_unasked (unasked_of_discard H₂))).of_append
      (refused_of_rejected H₁)

theorem nextAttempt?_of_attempt {x : Progress} {result : Except Failure Response × Progress}
    (H : w.Runs (attempt c r x) h result w') (later : List Event) :
    Event.nextAttempt? (h ++ later) = some w.now := by
  obtain ⟨_, _, h₁, h₂, rfl, H₁, _⟩ := World.runs_bind_iff.1 H
  obtain ⟨_, _, h₃, h₄, rfl, H₃, _⟩ := World.runs_bind_iff.1 H₁
  obtain ⟨_, _, h₅, _, rfl, _⟩ := World.runs_ask_iff.1 H₃
  rfl

/-! ### Waits that are asked for -/

/-- No request of the call follows, or the next attempt starts so many seconds later. -/
def Waited (ended n : Nat) (later : List Event) : Prop :=
  Event.replies later = [] ∨
    ∃ next, Event.nextAttempt? later = some next ∧ ended + n * 10 ^ 9 ≤ next

/-- A timer does not cut the wait short that a reply asks for: no timer cuts short so few seconds,
or the number can be told and this timer reaches the end of the wait that is made. -/
def Lasts (t : Timer) (ended n : Nat) (later : List Event) : Prop :=
  n * 10 ^ 9 ≤ Timer.far.nanos ∨
    n < 2 ^ 64 ∧ ∃ d, Event.nextWait? later = some d ∧ t.reaches ended d = true

/-- What becomes of the wait that a reply asks for. -/
def Minds (c : Config) (t : Timer) (e : Event) (later : List Event) : Prop :=
  ∀ s x began ended n, e = ⟨.send s, x, began, ended⟩ → Reply.asked? x = some n →
    (s.asksForToken = false →
      (Waited ended n later ↔ Event.replies later = [] ∨ Lasts t ended n later)) ∧
    (s.asksForToken = true →
      Event.replies later = [] ∨ ∃ token, s = (Grant.refreshToken token).request c)

variable {t : Timer}

theorem minds_of_refused (H : Refused c h) (rest : List Event) :
    Event.EachThen (Minds c t) rest h := by
  refine Event.eachThen_of_forall fun e he later => ?_
  rintro s x began ended n rfl hn
  rcases H _ he with hnone | ⟨token, hs⟩
  · exact absurd (hn.symm.trans hnone) nofun
  · cases hs
    have hasks : ((Grant.refreshToken token).request c).asksForToken = true := asksForToken_grant ..
    exact ⟨fun hs => absurd (hasks.symm.trans hs) nofun, fun _ => .inr ⟨token, rfl⟩⟩

theorem minds_of_unasked (H : Event.Unasked h) (rest : List Event) :
    Event.EachThen (Minds c t) rest h :=
  minds_of_refused (refused_of_unasked H) rest

/-- After these the call makes no request. -/
theorem minds_of_replies {rest : List Event} (hr : Event.replies (h ++ rest) = []) :
    Event.EachThen (Minds c t) rest h := by
  induction h with
  | nil => trivial
  | cons e h ih =>
    have hlater : Event.replies (h ++ rest) = [] :=
      List.filterMap_eq_nil_iff.2 fun e' he => List.filterMap_eq_nil_iff.1 hr e' (.tail _ he)
    refine ⟨?_, ih hlater⟩
    rintro s x began ended n rfl -
    exact ⟨fun _ => iff_of_true (.inl hlater) (.inl hlater), fun _ => .inl hlater⟩

/-- The last request of an attempt, with what comes after the attempt. -/
theorem minds_of_replied {before look rest : List Event} {s : Request} {x : Reply}
    {began ended : Nat} (hb : Refused c before) (hs : s.asksForToken = false)
    (hlook : World.Idle look)
    (hx : ∀ n, x.asked? = some n →
      (Waited ended n rest ↔ Event.replies rest = [] ∨ Lasts t ended n rest)) :
    Event.EachThen (Minds c t) rest (before ++ ⟨.send s, x, began, ended⟩ :: look) := by
  have hreplies : Event.replies (look ++ rest) = Event.replies rest := by
    rw [Event.replies_append, (Event.apart_of_idle hlook).replies, List.nil_append]
  refine Event.eachThen_append.2
    ⟨minds_of_refused hb _, ?_, minds_of_unasked (Event.unasked_of_idle hlook) rest⟩
  rintro _ _ _ _ n ⟨⟩ hn
  refine ⟨fun _ => ?_, fun ht => absurd (hs.symm.trans ht) nofun⟩
  rw [Waited, Lasts, hreplies, Event.nextAttempt?_append hlook, Event.nextWait?_append hlook]
  exact hx n hn

/-- A call that ends after an attempt. -/
theorem Ending.minds {result : Except Failure Response} {withoutToken : Bool}
    (H : Ending c w' result withoutToken h) {rest : List Event} (hr : Event.replies rest = []) :
    Event.EachThen (Minds c t) rest h := by
  cases H with
  | noToken hb ha =>
    refine Event.eachThen_append.2 ⟨minds_of_refused hb _, minds_of_replies ?_⟩
    rw [Event.replies_append, ha, hr]
    rfl
  | replied _ hb hs hlook _ =>
    exact minds_of_replied hb hs hlook fun n _ => iff_of_true (.inl hr) (.inl hr)

/-- A wait that is granted after a reply is as long as the reply asks for if the number can be told;
whether it lasts for so long is a matter of the timer. No timer runs for more seconds than that. -/
theorem asked_le_iff {q q' : Schedule} {past : List Event} {now : Nat} {time : Timestamp}
    {e : Error} {d : Duration} {x : Reply} {n : Nat} (hx : conclusion time x = .error (.error e))
    (hn : x.asked? = some n) (hd : q.Granted c.retry (q.proposal c.retry past e.wait?) d q') :
    now + n * 10 ^ 9 ≤ t.stop now d ↔
      n * 10 ^ 9 ≤ Timer.far.nanos ∨ n < 2 ^ 64 ∧ t.reaches now d = true := by
  have hfar : Timer.far.nanos = 30 * 365 * 86400 * 10 ^ 9 := rfl
  by_cases hrange : n < 2 ^ 64
  · obtain ⟨e', d', he', _, hwait, hnanos⟩ :=
      wait?_of_seconds? time (Reply.seconds?_of_asked? hn hrange)
    rw [hx] at he'
    cases he'
    have hlong : n * 10 ^ 9 ≤ d.nanos := by
      rw [← hnanos]
      exact hd.proposed d' (by rw [hwait]; rfl)
    rw [t.add_le_stop_iff hlong]
    simp only [hrange, true_and]
  · have hlast := t.stop_lt now d
    have hmilli : Duration.nanosPerMilli = 10 ^ 6 := rfl
    rw [Timer.horizon_eq] at hlast
    exact iff_of_false (by omega) (by omega)

/-! ### The whole call -/

theorem minding_rounds (c : Config) (r : Request) (w : World σ) :
    World.Rounds c.retry mayPass (attempt c r) w.now
      (fun past (v : World σ) _ _ => w.Later v ∧ ∀ rest, Event.nextAttempt? rest = some v.now →
        Event.EachThen (Minds c w.timer) rest past)
      (fun h _ _ => Event.EachThen (Minds c w.timer) [] h) := by
  refine .of_ends (Q := fun h _ => Event.EachThen (Minds c w.timer) [] h)
    (fun {past h h' v v' u q x y result} hI H hlook => ?_)
    fun {past h h' v v' u t q q' x y e d} hI H he hlook hnext hsleep => ?_
  · rw [List.append_assoc]
    refine Event.eachThen_append.2 ⟨hI.2 _ ?_, Event.eachThen_append.2 ⟨?_, ?_⟩⟩
    · rw [List.append_nil]
      exact nextAttempt?_of_attempt H h'
    · refine (ending_of_attempt H).minds ?_
      rw [List.append_nil]
      exact (Event.apart_of_idle hlook.idle).replies
    · exact minds_of_unasked (Event.unasked_of_idle hlook.idle) []
  · have hl : w.Later u := (hI.1.trans H.later).trans hlook.later
    refine ⟨hl.trans (World.later_answer? hsleep), fun rest hrest => ?_⟩
    have hpause : Event.Unasked (h' ++ [⟨.sleep d, (), v'.now, t.now⟩]) :=
      (Event.unasked_of_idle hlook.idle).append (List.forall_mem_singleton.2 rfl)
    have hy : y.withoutToken = false := by
      simp only [mayPass, Bool.and_eq_true, Bool.not_eq_true'] at he
      exact he.2
    rw [List.append_assoc, List.append_assoc]
    refine Event.eachThen_append.2
      ⟨hI.2 _ ?_, Event.eachThen_append.2 ⟨?_, minds_of_unasked hpause _⟩⟩
    · rw [List.append_assoc]
      exact nextAttempt?_of_attempt H _
    · -- a reply calls for the wait, and the wait is over when the next attempt starts
      have hend := ending_of_attempt H
      rw [hy] at hend
      cases hend with
      | replied _ hb hs hafter hresult =>
        refine minds_of_replied hb hs hafter fun n hn => ?_
        have hstop : t.now = w.timer.stop v'.now d := by
          rw [World.answer?_sleep] at hsleep
          cases hsleep
          change max u.now (u.timer.stop u.now d) = _
          rw [hlook.now, hl.timer]
          exact Nat.max_eq_right (Timer.le_stop _ _ _)
        have hattempt : Event.nextAttempt? (h' ++ [⟨.sleep d, (), v'.now, t.now⟩] ++ rest) =
            some t.now := by
          rw [List.append_assoc, Event.nextAttempt?_append hlook.idle]
          exact hrest
        have hwait : Event.nextWait? (h' ++ [⟨.sleep d, (), v'.now, t.now⟩] ++ rest) = some d := by
          rw [List.append_assoc, Event.nextWait?_append hlook.idle]
          rfl
        rw [Waited, Lasts, hattempt, hwait]
        simp only [Option.some.injEq, exists_eq_left', hstop]
        rw [asked_le_iff hresult.symm hn (Schedule.granted_of_next hnext)]

theorem minds_of_runs {result : Except Failure Response} (H : w.Runs (run c r) h result w') :
    Event.EachThen (Minds c w.timer) [] h := by
  obtain ⟨_, H⟩ := attempts_of_runs H
  refine (minding_rounds c r w).repeating ⟨.refl w, fun rest _ => ?_⟩ H
  exact minds_of_unasked (List.forall_mem_singleton.2 rfl) rest

instance (ended n : Nat) (later : List Event) : Decidable (Waited ended n later) :=
  decidable_of_iff
    ((Event.replies later).isEmpty ∨ (Event.nextAttempt? later).any (ended + n * 10 ^ 9 ≤ ·)) (by
      simp [Waited, Option.any_eq_true])

end Delivery

/-- However many seconds a reply to a call asks for: no request of the call follows, or the next
attempt starts no sooner, just when no request follows or the timer does not cut the wait short.
What a reply of the token endpoint asks for may pass unnoticed only where a refresh token was
refused. -/
theorem waited_iff_of_asked {σ : Type} (c : Config) (method : Http.Method) (path : String)
    (body : Option Bytes) (w : World σ) (hl : w.line = []) :
    let call := Delivery.run c (Delivery.request c method path body)
    ∃ result w', w.solo none call = (some result, w') ∧
      ∀ past later s x began ended n,
        w.history call = past ++ ⟨.send s, x, began, ended⟩ :: later →
        Reply.asked? x = some n →
        (s.asksForToken = false →
          (Delivery.Waited ended n later ↔
            Event.replies later = [] ∨ Delivery.Lasts w.timer ended n later)) ∧
        (s.asksForToken = true →
          Event.replies later = [] ∨ ∃ token, s = (Grant.refreshToken token).request c) := by
  intro call
  obtain ⟨result, w', H⟩ := Delivery.exists_runs (Delivery.request c method path body) hl
  refine ⟨result, w', H.solo_eq, fun past later s x began ended n hh hn => ?_⟩
  have hminds := Delivery.minds_of_runs H
  rw [hh] at hminds
  exact hminds.of_split s x began ended n rfl hn

/-- A server that asks for two seconds. -/
def World.courteous : World Script :=
  .scripted {
    replies := [.tooMany 2, .ofText 200 "done"]
    defaultToken := some (.token "fresh" 3600) }

theorem waited_iff_of_courteous :
    let call := Delivery.run .plain (Delivery.request .plain .get "/volumes" none)
    World.courteous.line = [] ∧
      (World.courteous.history call).filterMap Event.asked? = [2] ∧
      (Event.replies (World.courteous.history call)).length = 2 ∧
      ∃ result w', World.courteous.solo none call = (some result, w') ∧
        ∀ past later s x began ended n,
          World.courteous.history call = past ++ ⟨.send s, x, began, ended⟩ :: later →
          Reply.asked? x = some n →
          (s.asksForToken = false →
            (Delivery.Waited ended n later ↔
              Event.replies later = [] ∨
                Delivery.Lasts World.courteous.timer ended n later)) ∧
          (s.asksForToken = true →
            Event.replies later = [] ∨ ∃ token, s = (Grant.refreshToken token).request .plain) :=
  ⟨rfl, by decide +kernel, by decide +kernel,
    waited_iff_of_asked .plain .get "/volumes" none .courteous rfl⟩

/-- A server that asks for more seconds than a number can tell. -/
def World.unending : World Script :=
  .scripted {
    replies := [
      .ok {
        status := 429
        headers := [("retry-after", "18446744073709551616")]
        body := Utf8.encode "later" },
      .ofText 200 "done"]
    defaultToken := some (.token "fresh" 3600) }

/-- What comes after a reply has not waited for the seconds that the reply asks for. -/
def Delivery.hastens (n : Nat) : List Event → Bool
  | ⟨.send s, x, _, ended⟩ :: later =>
    !s.asksForToken && Reply.asked? x = some n && !decide (Waited ended n later)
  | _ => false

theorem Delivery.exists_split_of_hastens {n k : Nat} {h : List Event}
    (H : hastens n (h.drop k) = true) :
    ∃ past later s x began ended, h = past ++ ⟨.send s, x, began, ended⟩ :: later ∧
      s.asksForToken = false ∧ Reply.asked? x = some n ∧ ¬ Waited ended n later := by
  unfold hastens at H
  split at H
  · rename_i s x began ended later hdrop
    simp only [Bool.and_eq_true, Bool.not_eq_true', decide_eq_true_eq,
      decide_eq_false_iff_not] at H
    obtain ⟨⟨hs, hx⟩, hwaited⟩ := H
    refine ⟨h.take k, later, s, x, began, ended, ?_, hs, hx, hwaited⟩
    rw [← hdrop, List.take_append_drop]
  · contradiction

/-- Every wait that is asked for should be waited for, but this one is not. -/
theorem not_waited_of_unending :
    ∃ past later s x began ended,
      World.unending.history
          (Delivery.run .plain (Delivery.request .plain .get "/volumes" none)) =
        past ++ ⟨.send s, x, began, ended⟩ :: later ∧
      s.asksForToken = false ∧ Reply.asked? x = some (2 ^ 64) ∧
      ¬ Delivery.Waited ended (2 ^ 64) later :=
  Delivery.exists_split_of_hastens (k := 6) (by decide +kernel)

end CloudClient
