import CloudClient.Proofs.Delivery.Outcome
import CloudClient.Proofs.Machine.Scripted
import CloudClient.Proofs.Numeric.Binary64

/-!
When a call under the standard policy comes to a time that no duration can hold: just when the last
reply asks for so many seconds. The delays of the policy, the dates that replies may name and the
clock itself, with all that a call can wait after its end, are too short for that.
-/

namespace CloudClient

open Http (Request Response)

/-- Far more than the last waits of a call and the time up to any date, far less than a duration can
hold. -/
def farTime : Nat :=
  2 ^ 48 * 10 ^ 9

namespace Schedule

variable {σ : Type} {q : Schedule} {elapsed : Nat} {proposed : Option Duration}

/-- No overflow comes of lengths of time that are not extreme. -/
theorem not_overruns {p : RetryPolicy} {d : Duration} (he : elapsed ≤ Timer.horizon + farTime)
    (hq : q.previous.nanos ≤ farTime) (hp : proposed = some d) (hd : d.nanos ≤ farTime) :
    ¬ q.Overruns p elapsed proposed := by
  intro ho
  have hlong : 2 ^ 64 * 10 ^ 9 ≤ q.resumes elapsed d := ho.2 d hp
  rw [resumes, Duration.max_nanos] at hlong
  rw [Timer.horizon_eq] at he
  rw [farTime] at he hq hd
  omega

theorem previous_le {delays : List Duration} {n : Nat} (h : ∀ d ∈ delays, d.nanos ≤ n) :
    (after delays).previous.nanos ≤ n := by
  cases hl : delays.getLast? with
  | none =>
    rw [after, hl]
    exact Nat.zero_le n
  | some d =>
    rw [after, hl]
    exact h d (List.mem_of_getLast? hl)

end Schedule

namespace TokenCache

variable {σ : Type} {c : Config} {w w' : World σ} {h : List Event}

theorem standard_delay_le (hc : c.retry = .standard) {q : Schedule}
    (hq : q.retries < c.retry.maxRetries.toNat) {sample : Binary64} (hs : sample.AtMost 0) :
    ∃ d, c.retry.delay? q.retries sample = some d ∧ d.nanos ≤ farTime := by
  rw [hc] at hq ⊢
  obtain ⟨d, hd, hle⟩ := RetryPolicy.standard_delay? hq hs
  refine ⟨d, hd, Nat.le_trans hle ?_⟩
  decide

theorem standard_maxElapsed_le (hc : c.retry = .standard) :
    c.retry.maxElapsed.nanos ≤ farTime := by
  rw [hc]
  decide

theorem fetch_ne_overflow {g : Grant} (hc : c.retry = .standard)
    (hw : ∀ t, (w.chance t).AtMost 0) : ¬ w.Runs (fetch c g) h (.error .overflow) w' := by
  intro H
  obtain ⟨q, hq, ho⟩ := overruns_of_fetch H
  have hsample : (Event.lastSample h).AtMost 0 :=
    Event.lastSample_of_forall (Binary64.atMost_zero 0) (H.chance hw)
  obtain ⟨d, hd, hle⟩ := standard_delay_le hc ho.1 hsample
  have hnow : w'.now ≤ max w.now Timer.horizon + fetchWaits c * World.longestStep :=
    (H.bounded (bounded_fetch c g)).2
  have hwaits : fetchWaits c * World.longestStep ≤ farTime := by
    rw [fetchWaits, hc]
    decide
  have hprev : q.previous.nanos ≤ farTime := Nat.le_trans hq (standard_maxElapsed_le hc)
  have helapsed : w'.now - w.now ≤ Timer.horizon + farTime := by omega
  exact Schedule.not_overruns helapsed hprev hd hle ho

end TokenCache

namespace Delivery

variable {σ : Type} {c : Config} {r : Request} {w w' : World σ} {h : List Event}
  {result : Except Failure Response}

theorem conclusion_ne_overflow (now : Timestamp) (reply : Reply) :
    conclusion now reply ≠ .error .overflow := by
  cases reply with
  | error f => simp [conclusion]
  | ok response =>
    simp only [conclusion]
    repeat' split
    all_goals simp

/-- A date is not far from any time of day. -/
theorem waitAt_le {now : Timestamp} {value : String} {d : Duration}
    (hn : Text.unsigned? (2 ^ 64) (Text.trim value) = none) (h : waitAt now value = some d) :
    d.nanos ≤ farTime := by
  simp only [waitAt, hn] at h
  obtain ⟨date, hparse, hd⟩ := Option.map_eq_some_iff.1 h
  have hdate := date.time.inRange
  have hnow := now.inRange
  have hsince : (date.since now).nanos ≤ farTime := by
    rw [farTime, HttpDate.since]
    dsimp only
    split <;> omega
  rw [← hd, TimeDelta.toDuration?]
  split
  · rw [Duration.ofNanos?]
    split
    · change (date.since now).nanos.toNat ≤ farTime
      omega
    · exact Nat.zero_le _
  · exact Nat.zero_le _

theorem wait?_le {now : Timestamp} {reply : Reply} {e : Error} {d : Duration}
    (H : conclusion now reply = .error (.error e)) (hn : reply.seconds? = none)
    (hd : e.wait? = some d) : d.nanos ≤ farTime := by
  cases reply with
  | error f =>
    cases H
    cases hd
  | ok response =>
    by_cases hs : response.status = 429
    · rw [conclusion_of_tooMany hs] at H
      cases H
      obtain ⟨value, hvalue, hwait⟩ := Option.bind_eq_some_iff.1 hd
      rw [Reply.seconds?, if_pos hs, hvalue, Option.bind_some] at hn
      exact waitAt_le hn hwait
    · simp only [conclusion, if_neg hs] at H
      repeat' split at H
      all_goals
        cases H
        try cases hd

/-- The last reply asks for so many seconds, with a repetition left, that no duration holds them and
the time that has passed. -/
def AsksTooMuch (w : World σ) (h : List Event) (w' : World σ) : Prop :=
  ∃ reply n, (Event.replies h).getLast? = some reply ∧ reply.seconds? = some n ∧
    (Event.backoffs false h).length < 3 ∧ 2 ^ 64 * 10 ^ 9 ≤ w'.now - w.now + n * 10 ^ 9

theorem elapsed_le (hc : c.retry = .standard) (H : w.Runs (run c r) h result w') :
    w'.now - w.now ≤ Timer.horizon + farTime := by
  have hnow : w'.now ≤ max w.now Timer.horizon + runWaits c * World.longestStep :=
    (H.bounded (bounded_run c r)).2
  have hwaits : runWaits c * World.longestStep ≤ farTime := by
    rw [runWaits, attemptWaits, TokenCache.getWaits, TokenCache.fetchWaits, hc]
    decide
  omega

theorem noToken_ne_overflow (hc : c.retry = .standard) (hw : ∀ t, (w.chance t).AtMost 0)
    (H : NoToken c w h w' result) : result ≠ .error .overflow := by
  rintro rfl
  obtain ⟨f, u, _, acquiring, hf, _, hu, hget⟩ := H
  cases hf
  obtain ⟨g, v, v', h', hv, hfetch⟩ := (TokenCache.runs_get hget).2 _ rfl
  refine TokenCache.fetch_ne_overflow hc (fun t => ?_) hfetch
  rw [(hu.trans hv).chance]
  exact hw t

/-- Only seconds that a reply asks for bring the schedule to an overflow. -/
theorem seconds?_of_overruns (hc : c.retry = .standard) (hs : (Event.lastSample h).AtMost 0)
    (he : w'.now - w.now ≤ Timer.horizon + farTime) {now : Timestamp} {reply : Reply} {e : Error}
    (hin : ∀ d ∈ Event.backoffs false h, d.nanos ≤ c.retry.maxElapsed.nanos)
    (hreply : conclusion now reply = .error (.error e))
    (ho : Budget Schedule.Overruns c w h w' e) :
    ∃ n, reply.seconds? = some n ∧ 2 ^ 64 * 10 ^ 9 ≤ w'.now - w.now + n * 10 ^ 9 := by
  have hprev : (Schedule.after (Event.backoffs false h)).previous.nanos ≤ farTime :=
    Nat.le_trans (Schedule.previous_le hin) (TokenCache.standard_maxElapsed_le hc)
  cases hn : reply.seconds? with
  | some n =>
    -- the delay before cannot be the longer one, since it was granted
    obtain ⟨e', d, he', _, hwait, hnanos⟩ := wait?_of_seconds? now hn
    rw [hreply] at he'
    cases he'
    refine ⟨n, rfl, ?_⟩
    have hlong := ho.2 d (by rw [hwait]; rfl)
    rw [Schedule.resumes, Duration.max_nanos, hnanos] at hlong
    rw [Timer.horizon_eq] at he
    rw [farTime] at he hprev
    omega
  | none =>
    -- a date or the policy itself proposes the delay
    refine absurd ho ?_
    cases hwait : e.wait? with
    | some d => exact Schedule.not_overruns he hprev (by rw [hwait]; rfl) (wait?_le hreply hn hwait)
    | none =>
      obtain ⟨d, hd, hle⟩ := TokenCache.standard_delay_le hc ho.1 hs
      exact Schedule.not_overruns he hprev (by rw [hwait]; exact hd) hle

/-- The last reply of a call that overflows has asked for too much. -/
theorem asksTooMuch_of_overflow (hc : c.retry = .standard) (hs : (Event.lastSample h).AtMost 0)
    (he : w'.now - w.now ≤ Timer.horizon + farTime) {earlier : List Reply} {last : Reply}
    (H : Concluded c w h w' (.error .overflow) earlier last) : AsksTooMuch w h w' := by
  rcases H.result with ⟨hr, _⟩ | ⟨_, e, hreply, _, ho⟩
  · exact absurd hr.symm (conclusion_ne_overflow _ _)
  · obtain ⟨n, hn, hlong⟩ := seconds?_of_overruns hc hs he H.inTime hreply ho
    have hleft : (Event.backoffs false h).length < c.retry.maxRetries.toNat := ho.1
    rw [hc] at hleft
    refine ⟨last, n, ?_, hn, hleft, hlong⟩
    rw [H.replies, List.getLast?_concat]

/-- A last reply that asks for too much leads to nothing else. -/
theorem overflow_of_asksTooMuch (hc : c.retry = .standard) {earlier : List Reply} {last : Reply}
    (H : Concluded c w h w' result earlier last) (ha : AsksTooMuch w h w') :
    result = .error .overflow := by
  obtain ⟨reply, n, hreply, hn, hleft, hlong⟩ := ha
  rw [H.replies, List.getLast?_concat] at hreply
  cases hreply
  obtain ⟨e, d, he, htransient, hwait, hnanos⟩ := wait?_of_seconds? (w'.timeOfDay w'.now) hn
  rcases H.result with ⟨hr, hbudget⟩ | ⟨ho, _⟩
  · -- the error would be the result only with no repetition left or a time that can be told
    rcases hbudget e (hr.trans he) htransient with hspent | ⟨d', hd', _, hshort⟩
    · rw [hc] at hspent
      exact absurd hleft (Nat.not_lt.2 hspent)
    · rw [hwait] at hd'
      cases hd'
      rw [Schedule.resumes, Duration.max_nanos, hnanos] at hshort
      omega
  · exact ho

/-- What replies ask for that is granted is not too much. -/
theorem not_asksTooMuch_of_heeded (hc : c.retry = .standard)
    (he : w'.now - w.now ≤ Timer.horizon + farTime) (H : Heeded c (Event.replies h)) :
    ¬ AsksTooMuch w h w' := by
  rintro ⟨reply, n, hlast, hn, _, hlong⟩
  have hsoon : n * 10 ^ 9 ≤ farTime :=
    Nat.le_trans (H reply (List.mem_of_getLast? hlast) n hn) (TokenCache.standard_maxElapsed_le hc)
  rw [Timer.horizon_eq] at he
  rw [farTime] at he hsoon
  omega

theorem overflow_iff_of_runs (hc : c.retry = .standard) (hw : ∀ t, (w.chance t).AtMost 0)
    (H : w.Runs (run c r) h result w') :
    result = .error .overflow ↔ AsksTooMuch w h w' := by
  have helapsed : w'.now - w.now ≤ Timer.horizon + farTime := elapsed_le hc H
  have hsample : (Event.lastSample h).AtMost 0 :=
    Event.lastSample_of_forall (Binary64.atMost_zero 0) (H.chance hw)
  rcases concluded_of_runs H with ⟨hno, hheeded⟩ | ⟨earlier, last, hconcl⟩
  · exact iff_of_false (noToken_ne_overflow hc hw hno)
      (not_asksTooMuch_of_heeded hc helapsed hheeded)
  · constructor
    · rintro rfl
      exact asksTooMuch_of_overflow hc hsample helapsed hconcl
    · exact overflow_of_asksTooMuch hc hconcl

end Delivery

/-- A call under the standard policy comes to an end with a response or an error, whatever the
server replies and however long it takes, except where the last reply asks for too much. -/
theorem overflow_iff_asksTooMuch {σ : Type} (c : Config) (method : Http.Method) (path : String)
    (body : Option Bytes) (w : World σ) (hc : c.retry = .standard) (hl : w.line = [])
    (hw : ∀ t, (w.chance t).AtMost 0) :
    let call := Delivery.run c (Delivery.request c method path body)
    ∃ result w', w.solo none call = (some result, w') ∧
      (result = .error .overflow ↔ Delivery.AsksTooMuch w (w.history call) w') := by
  intro call
  obtain ⟨result, w', H⟩ := Delivery.exists_runs (Delivery.request c method path body) hl
  exact ⟨result, w', H.solo_eq, Delivery.overflow_iff_of_runs hc hw H⟩

/-- A server that asks for all the seconds that a number can tell, and takes a second to do so. -/
def World.overbearing : World Script :=
  .scripted {
    replies := [.tooMany 18446744073709551615]
    defaultToken := some (.token "fresh" 3600)
    delay := some (.ofSeconds 1) }

theorem overflow_iff_of_overbearing :
    let call := Delivery.run .plain (Delivery.request .plain .get "/volumes" none)
    Config.plain.retry = .standard ∧ World.overbearing.line = [] ∧
      (∀ t, (World.overbearing.chance t).AtMost 0) ∧
      ∃ result w', World.overbearing.solo none call = (some result, w') ∧
        (result = .error .overflow ↔
          Delivery.AsksTooMuch .overbearing (World.overbearing.history call) w') :=
  have hchance (t : Nat) : (World.overbearing.chance t).AtMost 0 := by
    rw [World.overbearing, World.chance_scripted]
    decide +kernel
  ⟨rfl, rfl, hchance,
    overflow_iff_asksTooMuch .plain .get "/volumes" none .overbearing rfl rfl hchance⟩

def Delivery.overflows : Except Failure Response → Bool
  | .error .overflow => true
  | _ => false

/-- No call should end in an overflow, but one can. -/
theorem overflow_of_overbearing :
    ∃ w', World.overbearing.solo none
      (Delivery.run .plain (Delivery.request .plain .get "/volumes" none)) =
        (some (.error .overflow), w') := by
  have hover : (World.overbearing.solo none
      (Delivery.run .plain (Delivery.request .plain .get "/volumes" none))).1.any
        Delivery.overflows = true := by
    decide +kernel
  obtain ⟨result, hresult, hoverflow⟩ := Option.any_eq_true _ _ |>.1 hover
  unfold Delivery.overflows at hoverflow
  split at hoverflow
  · exact ⟨_, Prod.ext hresult rfl⟩
  · contradiction

end CloudClient
