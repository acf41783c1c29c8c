import CloudClient.Proofs.Machine.Scripted
import CloudClient.Proofs.Token.Getting

/-!
How long a token may be used. The check that it outlives a margin is exact for every margin that is
a time delta; of a longer one nothing is kept in reserve, and a cached token goes out until its end.
That end is where the life that the answer states is over, or the last instant there is.
-/

namespace CloudClient

namespace TimeDelta

/-- The greatest length, in nanoseconds. -/
def limit : Nat := (2 ^ 63 - 1) * 10 ^ 6

/-- What is counted of a length of time. -/
def counted (d : Duration) : Nat :=
  if d.nanos ≤ limit then d.nanos else 0

theorem nanos_ofDuration? (d : Duration) :
    ((ofDuration? d).getD .zero).nanos = counted d := by
  have hlimit : (limit : Int) = (2 ^ 63 - 1) * 10 ^ 6 := by decide
  rw [ofDuration?, ofNanos?, counted]
  by_cases h : d.nanos ≤ limit
  · rw [dif_pos (by omega), if_pos h]
    rfl
  · rw [dif_neg (by omega), if_neg h]
    rfl

end TimeDelta

namespace Token

variable {t : Token} {now : Timestamp} {margin : Duration}

/-- All instants are so close to each other that a deadline before the first one is long past. -/
theorem outlives_iff : t.outlives now margin = true ↔
    now.nanos + TimeDelta.counted margin < t.expiresAt.nanos := by
  have hnow := now.inRange
  have hend := t.expiresAt.inRange
  rw [outlives, Timestamp.sub?, TimeDelta.nanos_ofDuration?, Timestamp.ofNanos?]
  by_cases h : -8334601228800 * 10 ^ 9 ≤ t.expiresAt.nanos - TimeDelta.counted margin
  · rw [dif_pos ⟨h, by omega⟩]
    simp only [decide_eq_true_eq]
    change now.nanos < t.expiresAt.nanos - TimeDelta.counted margin ↔ _
    omega
  · rw [dif_neg fun hr => h hr.1]
    simp only [Bool.false_eq_true, false_iff]
    omega

/-- The margin is a time delta, or the token has come to its end anyway. -/
def Reserved (t : Token) (now : Timestamp) (margin : Duration) : Prop :=
  margin.nanos ≤ TimeDelta.limit ∨ t.expiresAt.nanos ≤ now.nanos

instance (t : Token) (now : Timestamp) (margin : Duration) : Decidable (t.Reserved now margin) :=
  inferInstanceAs (Decidable (_ ∨ _))

theorem outlives_iff_of_reserved (h : t.Reserved now margin) :
    t.outlives now margin = true ↔ now.nanos + margin.nanos < t.expiresAt.nanos := by
  rw [outlives_iff, TimeDelta.counted]
  rcases h with hmargin | hover
  · rw [if_pos hmargin]
  · constructor <;> intro hlong <;> omega

theorem outlives_of_not_reserved (h : ¬ t.Reserved now margin) :
    t.outlives now margin = true := by
  obtain ⟨hmargin, halive⟩ := not_or.1 h
  rw [outlives_iff, TimeDelta.counted, if_neg hmargin]
  omega

/-- A margin that is no time delta is longer than the time between any two instants. -/
theorem lt_of_not_reserved (h : ¬ t.Reserved now margin) :
    t.expiresAt.nanos < now.nanos + margin.nanos := by
  have hmargin := (not_or.1 h).1
  have hnow := now.inRange
  have hend := t.expiresAt.inRange
  rw [TimeDelta.limit] at hmargin
  omega

theorem exact_iff_reserved :
    (t.outlives now margin = true ↔ now.nanos + margin.nanos < t.expiresAt.nanos) ↔
      t.Reserved now margin := by
  constructor
  · intro hexact
    refine Decidable.byContradiction fun hnot => ?_
    have hlong := hexact.1 (outlives_of_not_reserved hnot)
    have hshort := lt_of_not_reserved hnot
    omega
  · exact outlives_iff_of_reserved

/-- What is left of a token that has not come to its end. -/
def remainder (t : Token) (now : Timestamp) : Duration :=
  ⟨(t.expiresAt.nanos - now.nanos).toNat, by
    have := now.inRange
    have := t.expiresAt.inRange
    omega⟩

theorem counted_remainder : TimeDelta.counted (t.remainder now) = (t.remainder now).nanos := by
  have hnow := now.inRange
  have hend := t.expiresAt.inRange
  rw [TimeDelta.counted, remainder, TimeDelta.limit, if_pos]
  dsimp only
  omega

/-- With all that is left of it as the margin, a token is no longer valid. -/
theorem not_outlives_remainder : t.outlives now (t.remainder now) = false := by
  rw [Bool.eq_false_iff, ne_eq, outlives_iff, counted_remainder, remainder]
  dsimp only
  omega

theorem smaller_margins_iff_reserved :
    (t.outlives now margin = true →
      ∀ smaller : Duration, smaller ≤ margin → t.outlives now smaller = true) ↔
        t.Reserved now margin := by
  constructor
  · intro hsmaller
    refine Decidable.byContradiction fun hnot => ?_
    have hle : t.remainder now ≤ margin := by
      have hshort := lt_of_not_reserved hnot
      change (t.expiresAt.nanos - now.nanos).toNat ≤ margin.nanos
      omega
    have hlives := hsmaller (outlives_of_not_reserved hnot) _ hle
    rw [not_outlives_remainder] at hlives
    contradiction
  · intro h hlives smaller hle
    change smaller.nanos ≤ margin.nanos at hle
    have hlong := (outlives_iff_of_reserved h).1 hlives
    rw [outlives_iff, TimeDelta.counted]
    split <;> omega

theorem outlives_earlier {earlier : Timestamp} (h : earlier.nanos ≤ now.nanos)
    (hlives : t.outlives now margin = true) : t.outlives earlier margin = true := by
  rw [outlives_iff] at hlives ⊢
  omega

end Token

namespace TokenCache

variable {σ : Type} {c : Config} {w w' : World σ} {t : Token}

/-- The cached token is given out, and no request is sent. -/
def Reuses (c : Config) (w : World σ) (t : Token) : Prop :=
  ∃ w', w.solo none (get c) = (some (.ok t), w') ∧ w'.sent = w.sent

theorem outlives_of_reuses (hl : w.line = []) (ht : w.cache = some t) (h : Reuses c w t) :
    t.outlives (w.timeOfDay w.now) c.tokenMargin = true := by
  obtain ⟨w', hsolo, hsent⟩ := h
  have H := World.runs_of_solo hsolo
  have hnone : Event.requests (w.history (get c)) = [] := by
    have hall := H.sent_eq
    rw [hsent] at hall
    exact List.self_eq_append_right.1 hall
  rcases runs_get_cases hl H with ⟨_, cached, hreused⟩ | ⟨_, asking, _, hrenewed⟩
  · obtain rfl : t = cached := Option.some.inj (ht.symm.trans hreused.cached)
    exact hreused.usable
  · -- a new token would have taken a request
    have hasked : Event.requests asking ≠ [] := requests_of_renew hrenewed.renewal
    rw [hrenewed.history, ← List.singleton_append, Event.requests_append, Event.requests_append,
      Event.requests_append] at hnone
    simp [hasked] at hnone

theorem reuses_of_outlives (hl : w.line = []) (ht : w.cache = some t)
    (hlives : t.outlives (w.timeOfDay w.now) c.tokenMargin = true) : Reuses c w t := by
  obtain ⟨r, w', H⟩ := exists_runs_get c hl
  rcases runs_get_cases hl H with ⟨_, cached, hreused⟩ | ⟨_, _, _, hrenewed⟩
  · obtain rfl : t = cached := Option.some.inj (ht.symm.trans hreused.cached)
    have hsolo := H.solo_eq
    rw [hreused.result] at hsolo
    exact ⟨w', hsolo, by rw [hreused.world]⟩
  · have hdead := hrenewed.unusable t ht
    rw [hlives] at hdead
    contradiction

theorem reuses_iff_outlives (hl : w.line = []) (ht : w.cache = some t) :
    Reuses c w t ↔ t.outlives (w.timeOfDay w.now) c.tokenMargin = true :=
  ⟨outlives_of_reuses hl ht, reuses_of_outlives hl ht⟩

/-- A cached token goes out with less left of it than the margin only where nothing is reserved. -/
theorem timely_iff_reserved (hl : w.line = []) (ht : w.cache = some t) :
    (Reuses c w t → c.tokenMargin.nanos ≤ (t.timeLeft (w.timeOfDay w.now)).nanos) ↔
      t.Reserved (w.timeOfDay w.now) c.tokenMargin := by
  rw [reuses_iff_outlives hl ht, Token.timeLeft, Timestamp.since]
  dsimp only
  constructor
  · intro htimely
    refine Decidable.byContradiction fun hnot => ?_
    have hlong := htimely (Token.outlives_of_not_reserved hnot)
    have hshort := Token.lt_of_not_reserved hnot
    omega
  · intro h hlives
    have hlong := (Token.outlives_iff_of_reserved h).1 hlives
    omega

end TokenCache

/-- A token is checked exactly, stays valid under smaller margins, and is given out of the cache
only with the whole margin left, just when the margin is a time delta or the token has come to its
end; and a token that is valid was so before. -/
theorem outlives_exactly_iff_reserved (t : Token) (now : Timestamp) (margin : Duration) :
    ((t.outlives now margin = true ↔ now.nanos + margin.nanos < t.expiresAt.nanos) ↔
      t.Reserved now margin) ∧
    ((t.outlives now margin = true →
        ∀ smaller : Duration, smaller ≤ margin → t.outlives now smaller = true) ↔
      t.Reserved now margin) ∧
    (∀ earlier : Timestamp, earlier.nanos ≤ now.nanos → t.outlives now margin = true →
      t.outlives earlier margin = true) ∧
    ∀ {σ : Type} (c : Config) (w : World σ), w.line = [] → w.cache = some t →
      w.timeOfDay w.now = now → c.tokenMargin = margin →
      ((TokenCache.Reuses c w t → margin.nanos ≤ (t.timeLeft now).nanos) ↔
        t.Reserved now margin) := by
  refine ⟨Token.exact_iff_reserved, Token.smaller_margins_iff_reserved,
    fun _ => Token.outlives_earlier, ?_⟩
  rintro σ c w hl ht rfl rfl
  exact TokenCache.timely_iff_reserved hl ht

/-- A token with a hundred seconds to live. -/
def Token.brief : Token where
  accessToken := "brief"
  refreshToken := none
  tokenType := "Bearer"
  expiresAt := Token.expiry 100 .epoch
  scope := ""

def World.holding (t : Token) : World Script :=
  { World.scripted {} with cache := some t }

theorem outlives_exactly_of_brief :
    (Token.brief.outlives .epoch (.ofSeconds 60) = true ↔
      Timestamp.epoch.nanos + (Duration.ofSeconds 60).nanos < Token.brief.expiresAt.nanos) ∧
    (World.holding .brief).line = [] ∧ (World.holding .brief).cache = some Token.brief ∧
    (TokenCache.Reuses .plain (.holding .brief) .brief →
      (Duration.ofSeconds 60).nanos ≤ (Token.brief.timeLeft .epoch).nanos) :=
  have hreserved : Token.brief.Reserved .epoch (.ofSeconds 60) := by decide
  have hexact := outlives_exactly_iff_reserved .brief .epoch (.ofSeconds 60)
  ⟨hexact.1.2 hreserved, rfl, rfl,
    (hexact.2.2.2 .plain (.holding .brief) rfl rfl rfl rfl).2 hreserved⟩

/-- With a margin of more than half a trillion years a token should not be valid, but it is. -/
theorem outlives_of_endless_margin :
    let margin : Duration := .ofSeconds 18446744073709551615
    Token.brief.outlives .epoch margin = true ∧
      ¬ Timestamp.epoch.nanos + margin.nanos < Token.brief.expiresAt.nanos := by
  decide

/-! ### The end of a life -/

namespace Timestamp

variable {t : Timestamp} {d : TimeDelta}

/-- Only the last instant bounds what a length that is not negative is added to. -/
theorem nanos_add?_getD (hd : 0 ≤ d.nanos) :
    ((t.add? d).getD max).nanos = min (t.nanos + d.nanos) max.nanos := by
  have ht := t.inRange
  have hmax : max.nanos = 8210266876800 * 10 ^ 9 - 1 := rfl
  rw [add?, ofNanos?]
  by_cases hend : t.nanos + d.nanos < 8210266876800 * 10 ^ 9
  · rw [dif_pos ⟨by omega, hend⟩, Option.getD_some]
    dsimp only
    omega
  · rw [dif_neg fun h => hend h.2, Option.getD_none]
    omega

end Timestamp

namespace Token

/-- A life too long to be a length of time is longer than the time between any two instants. -/
theorem nanos_expiry (lifetime : UInt64) (now : Timestamp) :
    (expiry lifetime now).nanos =
      min (now.nanos + lifetime.toNat * 10 ^ 9) Timestamp.max.nanos := by
  have hnow := now.inRange
  rw [expiry, TimeDelta.ofSeconds?, TimeDelta.ofNanos?]
  by_cases hlife : (lifetime.toNat : Int) * 10 ^ 9 ≤ (2 ^ 63 - 1) * 10 ^ 6
  · rw [dif_pos ⟨by omega, hlife⟩, Option.bind_some, Timestamp.nanos_add?_getD]
    dsimp only
    omega
  · have hmax : Timestamp.max.nanos = 8210266876800 * 10 ^ 9 - 1 := rfl
    rw [dif_neg fun h => hlife h.2, Option.bind_none, Option.getD_none]
    omega

end Token

/-- The seconds that a token is to live: as many as the answer says, or an hour. -/
def TokenResponse.secondsToLive (r : TokenResponse) : Nat :=
  match r.expiresIn with
  | some seconds => seconds.toNat
  | none => 3600

theorem Token.nanos_expiresAt (r : TokenResponse) (now : Timestamp) :
    (ofResponse r now).expiresAt.nanos =
      min (now.nanos + r.secondsToLive * 10 ^ 9) Timestamp.max.nanos := by
  have hlife : (r.expiresIn.getD defaultLifetime).toNat = r.secondsToLive := by
    rw [TokenResponse.secondsToLive]
    cases r.expiresIn <;> rfl
  rw [← hlife]
  exact nanos_expiry _ now

/-- A token ends when its life is over or with time itself, whichever comes first, however long the
life is. So it never ends before it begins, and no earlier for beginning later or living longer. -/
theorem expiry_saturates (r : TokenResponse) (now : Timestamp) :
    (Token.ofResponse r now).expiresAt.nanos =
        min (now.nanos + r.secondsToLive * 10 ^ 9) Timestamp.max.nanos ∧
      now.nanos ≤ (Token.ofResponse r now).expiresAt.nanos ∧
      ∀ (r' : TokenResponse) (now' : Timestamp), now.nanos ≤ now'.nanos →
        r.secondsToLive ≤ r'.secondsToLive →
        (Token.ofResponse r now).expiresAt.nanos ≤ (Token.ofResponse r' now').expiresAt.nanos := by
  have hmax : Timestamp.max.nanos = 8210266876800 * 10 ^ 9 - 1 := rfl
  have hnow := now.inRange
  refine ⟨Token.nanos_expiresAt r now, ?_, fun r' now' hbegins hlives => ?_⟩
  · rw [Token.nanos_expiresAt]
    omega
  · rw [Token.nanos_expiresAt, Token.nanos_expiresAt]
    omega

/-- An answer that states a life of so many seconds, or none. -/
def TokenResponse.lasting (seconds : Option UInt64) : TokenResponse :=
  ⟨"lasting", none, "Bearer", seconds, none⟩

/-- The longest life that can be stated takes a token to the last instant, an hour does not. -/
theorem expiry_saturates_of_endless :
    let hour := TokenResponse.lasting none
    let endless := TokenResponse.lasting (some 18446744073709551615)
    Timestamp.epoch.nanos ≤ Timestamp.epoch.nanos ∧ hour.secondsToLive ≤ endless.secondsToLive ∧
      (Token.ofResponse hour .epoch).expiresAt.nanos = 3600 * 10 ^ 9 ∧
      (Token.ofResponse endless .epoch).expiresAt.nanos = Timestamp.max.nanos ∧
      (Token.ofResponse hour .epoch).expiresAt.nanos ≤
        (Token.ofResponse endless .epoch).expiresAt.nanos := by
  intro hour endless
  have hbegins : Timestamp.epoch.nanos ≤ Timestamp.epoch.nanos := Int.le_refl _
  have hlives : hour.secondsToLive ≤ endless.secondsToLive := by decide
  exact ⟨hbegins, hlives, (expiry_saturates hour .epoch).1.trans (by decide),
    (expiry_saturates endless .epoch).1.trans (by decide),
    (expiry_saturates hour .epoch).2.2 endless .epoch hbegins hlives⟩

end CloudClient
