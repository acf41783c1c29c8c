import CloudClient.Retry.Policy

/-!
Bounds of floating-point results. Every rounding loses a factor of two at most, which is enough to
see that delays of the standard policy are durations whatever chance brings.
-/

namespace CloudClient

namespace Binary64

variable {x y : Binary64} {j k : Nat}

/-- Finite numbers of magnitude `2 ^ k` at most. -/
inductive AtMost (k : Nat) : Binary64 → Prop where
  | finite {negative : Bool} {m e : Nat} {hc : Canonical m e} :
      m * 2 ^ e ≤ 2 ^ (k + 1074) → AtMost k (.finite negative m e hc)

instance (k : Nat) : (x : Binary64) → Decidable (x.AtMost k)
  | .nan => isFalse nofun
  | .infinite _ => isFalse nofun
  | .finite _ m e _ =>
    if h : m * 2 ^ e ≤ 2 ^ (k + 1074) then isTrue (.finite h) else isFalse fun | .finite h' => h h'

theorem atMost_zero (k : Nat) : zero.AtMost k :=
  .finite (by rw [Nat.zero_mul]; exact Nat.zero_le _)

theorem AtMost.mono (h : x.AtMost j) (hk : j ≤ k) : x.AtMost k := by
  cases h with
  | finite hm => exact .finite (Nat.le_trans hm (Nat.pow_le_pow_right (by decide) (by omega)))

theorem le_divNearest (num den : Nat) : num / den ≤ divNearest num den := by
  simp only [divNearest]
  split <;> omega

theorem divNearest_le (num den : Nat) : divNearest num den ≤ num / den + 1 := by
  simp only [divNearest]
  split <;> omega

theorem atMost_ofParts {s : Bool} {m e : Nat} (hc : Canonical m e)
    (h : m * 2 ^ e ≤ 2 ^ (k + 1074)) :
    (ofParts s m e).AtMost k := by
  rw [ofParts, dif_pos hc]
  exact .finite h

/-- The significand fills its bits as far as the exponent lets it. -/
theorem scaled_bounds (q : Nat) :
    q / 2 ^ (q.log2 - 52) < 2 ^ 53 ∧
      (0 < q.log2 - 52 → 2 ^ 52 ≤ q / 2 ^ (q.log2 - 52) ∧ 2 ^ (q.log2 - 52 + 52) ≤ q) := by
  have hpos : 0 < 2 ^ (q.log2 - 52) := Nat.two_pow_pos _
  constructor
  · rw [Nat.div_lt_iff_lt_mul hpos, ← Nat.pow_add]
    have hlt : q < 2 ^ (q.log2 + 1) := Nat.lt_log2_self
    exact Nat.lt_of_lt_of_le hlt (Nat.pow_le_pow_right (by decide) (by omega))
  · intro he
    have hq : q ≠ 0 := by
      rintro rfl
      simp at he
    have hle : 2 ^ (q.log2 - 52 + 52) ≤ q := by
      rw [show q.log2 - 52 + 52 = q.log2 by omega]
      exact Nat.log2_self_le hq
    refine ⟨?_, hle⟩
    rw [Nat.le_div_iff_mul_le hpos, ← Nat.pow_add, Nat.add_comm]
    exact hle

theorem two_pow_double (k : Nat) : 2 ^ (k + 1 + 1074) = 2 ^ (k + 1074) + 2 ^ (k + 1074) := by
  rw [Nat.add_right_comm, Nat.pow_succ, Nat.mul_two]

/-- A significand next to the scaled number, which may carry into the exponent. -/
theorem atMost_rounded (negative : Bool) {q significand : Nat} (hk : k ≤ 900)
    (hq : q ≤ 2 ^ (k + 1074)) (hlow : q / 2 ^ (q.log2 - 52) ≤ significand)
    (hhigh : significand ≤ q / 2 ^ (q.log2 - 52) + 1) :
    (if significand = 2 ^ 53 then ofParts negative (2 ^ 52) (q.log2 - 52 + 1)
      else ofParts negative significand (q.log2 - 52)).AtMost (k + 1) := by
  obtain ⟨hlt, hbits⟩ := scaled_bounds q
  have hscaled : q / 2 ^ (q.log2 - 52) * 2 ^ (q.log2 - 52) ≤ q := Nat.div_mul_le_self _ _
  generalize q.log2 - 52 = e at *
  -- the unit of the last place is well below the bound, or the least there is
  have hexp : e = 0 ∨ e + 52 ≤ k + 1074 := by
    rcases Nat.eq_zero_or_pos e with he | he
    · exact .inl he
    · exact .inr ((Nat.pow_le_pow_iff_right (by decide)).1 (Nat.le_trans (hbits he).2 hq))
  split
  · refine atMost_ofParts ⟨by decide, by omega, .inr (Nat.le_refl _)⟩ ?_
    rw [← Nat.pow_add]
    exact Nat.pow_le_pow_right (by decide) (by omega)
  · refine atMost_ofParts ⟨by omega, by omega, ?_⟩ ?_
    · rcases Nat.eq_zero_or_pos e with he | he
      · exact .inl he
      · exact .inr (Nat.le_trans (hbits he).1 hlow)
    · have hunit : 2 ^ e ≤ 2 ^ (k + 1074) := Nat.pow_le_pow_right (by decide) (by omega)
      calc significand * 2 ^ e ≤ (q / 2 ^ e + 1) * 2 ^ e := Nat.mul_le_mul_right _ hhigh
        _ = q / 2 ^ e * 2 ^ e + 2 ^ e := Nat.succ_mul _ _
        _ ≤ 2 ^ (k + 1074) + 2 ^ (k + 1074) := Nat.add_le_add (Nat.le_trans hscaled hq) hunit
        _ = 2 ^ (k + 1 + 1074) := (two_pow_double k).symm

theorem atMost_round {negative : Bool} {num den : Nat} (hk : k ≤ 900) (h : num ≤ 2 ^ k * den) :
    (round negative num den).AtMost (k + 1) := by
  have hq : num * 2 ^ 1074 / den ≤ 2 ^ (k + 1074) := by
    refine Nat.div_le_of_le_mul ?_
    calc num * 2 ^ 1074 ≤ 2 ^ k * den * 2 ^ 1074 := Nat.mul_le_mul_right _ h
      _ = den * 2 ^ (k + 1074) := by rw [Nat.pow_add, Nat.mul_right_comm, Nat.mul_comm]
  have hlow := le_divNearest (num * 2 ^ 1074) (den * 2 ^ ((num * 2 ^ 1074 / den).log2 - 52))
  have hhigh := divNearest_le (num * 2 ^ 1074) (den * 2 ^ ((num * 2 ^ 1074 / den).log2 - 52))
  rw [← Nat.div_div_eq_div_mul] at hlow hhigh
  exact atMost_rounded negative hk hq hlow hhigh

theorem mul_finite (s t : Bool) (m n e f : Nat) (hc : Canonical m e) (hd : Canonical n f) :
    finite s m e hc * finite t n f hd = round (s != t) (m * n * 2 ^ (e + f)) (2 ^ 2148) := by
  change mul _ _ = _
  rw [mul]

theorem AtMost.mul (hx : x.AtMost j) (hy : y.AtMost k) (h : j + k ≤ 900) :
    (x * y).AtMost (j + k + 1) := by
  obtain @⟨s, m, e, hc, hm⟩ := hx
  obtain @⟨t, n, f, hd, hn⟩ := hy
  rw [mul_finite]
  refine atMost_round h ?_
  calc m * n * 2 ^ (e + f) = m * 2 ^ e * (n * 2 ^ f) := by
        rw [Nat.pow_add, Nat.mul_mul_mul_comm]
    _ ≤ 2 ^ (j + 1074) * 2 ^ (k + 1074) := Nat.mul_le_mul hm hn
    _ = 2 ^ (j + 1074 + (k + 1074)) := (Nat.pow_add ..).symm
    _ = 2 ^ (j + k + 2148) := congrArg (2 ^ ·) (by omega)
    _ = 2 ^ (j + k) * 2 ^ 2148 := Nat.pow_add 2 (j + k) 2148

theorem natAbs_units (s : Bool) (m e : Nat) : (units s m e).natAbs = m * 2 ^ e := by
  cases s with
  | false => exact Int.natAbs_natCast _
  | true => exact (Int.natAbs_neg _).trans (Int.natAbs_natCast _)

theorem add_finite (s t : Bool) (m n e f : Nat) (hc : Canonical m e) (hd : Canonical n f) :
    finite s m e hc + finite t n f hd =
      if units s m e + units t n f = 0 then .finite (s && t) 0 0 (by decide)
      else round (units s m e + units t n f < 0) (units s m e + units t n f).natAbs (2 ^ 1074) :=
  rfl

theorem AtMost.add (hx : x.AtMost k) (hy : y.AtMost k) (h : k + 1 ≤ 900) :
    (x + y).AtMost (k + 2) := by
  obtain @⟨s, m, e, hc, hm⟩ := hx
  obtain @⟨t, n, f, hd, hn⟩ := hy
  rw [add_finite]
  split
  · exact .finite (by simp)
  · refine atMost_round h ?_
    calc (units s m e + units t n f).natAbs ≤ m * 2 ^ e + n * 2 ^ f := by
          rw [← natAbs_units s m e, ← natAbs_units t n f]
          exact Int.natAbs_add_le _ _
      _ ≤ 2 ^ (k + 1074) + 2 ^ (k + 1074) := Nat.add_le_add hm hn
      _ = 2 ^ (k + 1 + 1074) := (two_pow_double k).symm
      _ = 2 ^ (k + 1) * 2 ^ 1074 := Nat.pow_add 2 (k + 1) 1074

theorem AtMost.neg (hx : x.AtMost k) : (-x).AtMost k := by
  cases hx with
  | finite hm => exact .finite hm

/-- Nothing below zero is left beside zero. -/
theorem max_zero (s : Bool) (m e : Nat) (hc : Canonical m e) :
    (finite s m e hc).max zero = zero ∨
      (finite s m e hc).max zero = finite s m e hc ∧ (s && m != 0) = false := by
  have hmax : (finite s m e hc).max zero =
      if decide (units s m e < units false 0 0) then zero else finite s m e hc := rfl
  rw [hmax]
  split
  · exact .inl rfl
  · rename_i hlt
    refine .inr ⟨rfl, ?_⟩
    cases s with
    | false => rfl
    | true =>
      have hneg : ¬ -((m * 2 ^ e : Nat) : Int) < ((0 * 2 ^ 0 : Nat) : Int) := of_decide_eq_false
        (Bool.eq_false_iff.2 hlt)
      have hprod : m * 2 ^ e = 0 := by omega
      have hm : m = 0 := (Nat.mul_eq_zero.1 hprod).resolve_right (Nat.ne_of_gt (Nat.two_pow_pos e))
      rw [hm]
      rfl

end Binary64

namespace Duration

theorem ofNanos?_of_lt {n : Nat} (h : n < 2 ^ 64 * 10 ^ 9) : ofNanos? n = some ⟨n, h⟩ :=
  dif_pos h

theorem ofBinary64?_finite {negative : Bool} {m e : Nat} (hc : Binary64.Canonical m e)
    (h : (negative && m != 0) = false) :
    ofBinary64? (.finite negative m e hc) =
      ofNanos? (Binary64.divNearest (m * 2 ^ e * nanosPerSecond) (2 ^ 1074)) := by
  rw [ofBinary64?, h, if_neg Bool.false_ne_true]

/-- A number that is not below zero is a duration when it is not too large. -/
theorem ofBinary64?_max {x : Binary64} {k : Nat} (hx : x.AtMost k) (hk : k ≤ 63) :
    ∃ d, ofBinary64? (x.max .zero) = some d ∧ d.nanos ≤ 2 ^ k * nanosPerSecond + 1 := by
  obtain @⟨s, m, e, hc, hm⟩ := hx
  have hnanos : Binary64.divNearest (m * 2 ^ e * nanosPerSecond) (2 ^ 1074) ≤
      2 ^ k * nanosPerSecond + 1 := by
    refine Nat.le_trans (Binary64.divNearest_le _ _) (Nat.add_le_add_right ?_ 1)
    refine Nat.div_le_of_le_mul ?_
    -- the power is named by a variable, lest it be worked out
    have hswap (u v n : Nat) : u * v * n = v * (u * n) := by
      rw [Nat.mul_comm u, Nat.mul_assoc]
    calc m * 2 ^ e * nanosPerSecond ≤ 2 ^ (k + 1074) * nanosPerSecond := Nat.mul_le_mul_right _ hm
      _ = 2 ^ k * 2 ^ 1074 * nanosPerSecond := congrArg (· * nanosPerSecond) (Nat.pow_add 2 k 1074)
      _ = 2 ^ 1074 * (2 ^ k * nanosPerSecond) := hswap ..
  have hpow : 2 ^ k ≤ 2 ^ 63 := Nat.pow_le_pow_right (by decide) hk
  rcases Binary64.max_zero s m e hc with hz | ⟨hz, hpos⟩
  · rw [hz]
    exact ⟨.zero, by decide +kernel, Nat.zero_le _⟩
  · rw [hz, ofBinary64?_finite hc hpos]
    generalize Binary64.divNearest _ _ = n at *
    have hrange : n < 2 ^ 64 * 10 ^ 9 := by
      rw [nanosPerSecond] at hnanos
      omega
    exact ⟨⟨n, hrange⟩, ofNanos?_of_lt hrange, hnanos⟩

end Duration

namespace RetryPolicy

open Binary64

/-- What chance may take from a delay of the standard policy or add to it. -/
def standardRange (retry : Nat) : Binary64 :=
  standard.baseDelay retry * standard.jitter.clamp (.ofNat 0) (.ofNat 1)

theorem standard_delays {retry : Nat} (h : retry < standard.maxRetries.toNat) :
    (standard.baseDelay retry).AtMost 1 ∧ (standardRange retry).AtMost 0 := by
  have hall : ∀ retry < 3,
      (standard.baseDelay retry).AtMost 1 ∧ (standardRange retry).AtMost 0 := by
    decide +kernel
  exact hall retry h

/-- The standard policy proposes delays of two minutes and some seconds at most, far more than it
does. -/
theorem standard_delay? {retry : Nat} {sample : Binary64} (h : retry < standard.maxRetries.toNat)
    (hs : sample.AtMost 0) :
    ∃ d, standard.delay? retry sample = some d ∧
      d.nanos ≤ 2 ^ 7 * Duration.nanosPerSecond + 1 := by
  obtain ⟨hbase, hrange⟩ := standard_delays h
  have htwo : (ofNat 2).AtMost 1 := by decide +kernel
  have hone : (ofNat 1).AtMost 2 := by decide +kernel
  have hcentred : (sample * ofNat 2 - ofNat 1).AtMost 4 :=
    (hs.mul htwo (by decide)).add hone.neg (by decide)
  have hchance : ((sample * ofNat 2 - ofNat 1) * standardRange retry).AtMost 5 :=
    hcentred.mul hrange (by decide)
  have hsum : (standard.baseDelay retry +
      (sample * ofNat 2 - ofNat 1) * standardRange retry).AtMost 7 :=
    (hbase.mono (by decide)).add hchance (by decide)
  rw [delay?, jittered, ← standardRange]
  exact Duration.ofBinary64?_max hsum (by decide)

end RetryPolicy

end CloudClient
