import CloudClient.Machine.Timer

/-!
When waits on a timer are over: never before their time, as long as that is not cut short, and at
most a millisecond after it.
-/

namespace CloudClient

theorem Duration.min_nanos (a b : Duration) : (min a b).nanos = min a.nanos b.nanos := by
  change (if a ≤ b then a else b).nanos = min a.nanos b.nanos
  split
  · exact (Nat.min_eq_left ‹a.nanos ≤ b.nanos›).symm
  · exact (Nat.min_eq_right (Nat.le_of_not_le ‹¬ a.nanos ≤ b.nanos›)).symm

namespace Timer

variable {now : Nat} {d : Duration}

theorem horizon_eq : horizon = 2 ^ 63 * 10 ^ 9 :=
  rfl

theorem le_tick (t : Nat) : t ≤ tick t := by
  simp only [tick, Duration.nanosPerMilli]
  omega

theorem tick_lt (t : Nat) : tick t < t + Duration.nanosPerMilli := by
  simp only [tick, Duration.nanosPerMilli]
  omega

theorem tick_le_tick {t u : Nat} (h : t ≤ u) : tick t ≤ tick u :=
  Nat.mul_le_mul_right _ (Nat.div_le_div_right (Nat.add_le_add_right h _))

theorem stop_of_reaches {t : Timer} (h : t.reaches now d = true) :
    t.stop now d = tick (now + d.nanos) := by
  rw [stop, if_pos h]

theorem stop_of_not_reaches {t : Timer} (h : t.reaches now d = false) :
    t.stop now d = tick (now + min d.nanos far.nanos) := by
  rw [stop, if_neg (by simp [h]), Duration.min_nanos]

/-- No wait is over later than at the first whole millisecond from its end on. -/
theorem stop_le (t : Timer) (now : Nat) (d : Duration) : t.stop now d ≤ tick (now + d.nanos) := by
  cases h : t.reaches now d with
  | true => exact Nat.le_of_eq (stop_of_reaches h)
  | false =>
    rw [stop_of_not_reaches h]
    exact tick_le_tick (Nat.add_le_add_left (Nat.min_le_left _ _) _)

theorem le_stop (t : Timer) (now : Nat) (d : Duration) : now ≤ t.stop now d :=
  Nat.le_trans (Nat.le_add_right _ _) (le_tick _)

/-- A wait ends on the clock, or it is cut short. -/
theorem stop_lt (t : Timer) (now : Nat) (d : Duration) :
    t.stop now d < max horizon (now + far.nanos) + Duration.nanosPerMilli := by
  cases h : t.reaches now d with
  | true =>
    rw [stop_of_reaches h]
    have hend := tick_lt (now + d.nanos)
    have hrange := t.inRange now d h
    omega
  | false =>
    rw [stop_of_not_reaches h]
    have hend := tick_lt (now + min d.nanos far.nanos)
    omega

/-- A wait of so many seconds or more lasts for so long just when its end is reached, or it is not
cut short before. -/
theorem add_le_stop_iff (t : Timer) {n : Nat} (h : n * 10 ^ 9 ≤ d.nanos) :
    now + n * 10 ^ 9 ≤ t.stop now d ↔ n * 10 ^ 9 ≤ far.nanos ∨ t.reaches now d = true := by
  have hfar : far.nanos = 30 * 365 * 86400 * 10 ^ 9 := rfl
  have hmilli : Duration.nanosPerMilli = 10 ^ 6 := rfl
  cases hr : t.reaches now d with
  | true =>
    rw [stop_of_reaches hr]
    have hend := le_tick (now + d.nanos)
    exact iff_of_true (by omega) (.inr rfl)
  | false =>
    rw [stop_of_not_reaches hr]
    have hfirst := le_tick (now + min d.nanos far.nanos)
    have hlast := tick_lt (now + min d.nanos far.nanos)
    constructor
    · intro hle
      exact .inl (by omega)
    · rintro (hle | hle)
      · omega
      · contradiction

end Timer

end CloudClient
