import CloudClient.Proofs.Numeric.Binary64

/-!
Which results are finite. A quotient is rounded to a finite number as long as it is below a limit,
half way between the greatest number and the power of two above it; and rounding keeps the order of
what is rounded.
-/

namespace CloudClient.Binary64

variable {x y : Binary64} {negative : Bool} {num den u v : Nat}

/-- The least quotient that is rounded to infinity. -/
def limit : Nat := (2 ^ 54 - 1) * 2 ^ 970

theorem lt_limit {n : Nat} (h : n ≤ 2 ^ 64) : n < limit := by
  rw [limit]
  calc n ≤ 2 ^ 64 := h
    _ < 2 ^ 970 := Nat.pow_lt_pow_right (by decide) (by decide)
    _ ≤ (2 ^ 54 - 1) * 2 ^ 970 := Nat.le_mul_of_pos_left _ (by decide)

/-- The magnitude of a finite number in units of `2 ^ -1074`. -/
def size? : Binary64 → Option Nat
  | .finite _ m e _ => some (m * 2 ^ e)
  | _ => none

theorem isFinite_iff : x.isFinite = true ↔ ∃ u, x.size? = some u := by
  cases x <;> simp [isFinite, size?]

@[simp] theorem isFinite_neg (x : Binary64) : (-x).isFinite = x.isFinite := by
  cases x <;> rfl

theorem lt_of_canonical {m e j k : Nat} (hm : m < 2 ^ 53) (he : e ≤ j + 1 + k) :
    m * 2 ^ e < (2 ^ 54 - 1) * 2 ^ j * 2 ^ k := by
  have hpow : 2 ^ e ≤ 2 * (2 ^ j * 2 ^ k) := by
    rw [← Nat.mul_assoc, ← Nat.pow_succ', ← Nat.pow_add]
    exact Nat.pow_le_pow_right (by decide) he
  calc m * 2 ^ e ≤ (2 ^ 53 - 1) * (2 * (2 ^ j * 2 ^ k)) :=
        Nat.mul_le_mul (Nat.le_pred_of_lt hm) hpow
    _ = (2 ^ 53 - 1) * 2 * (2 ^ j * 2 ^ k) := (Nat.mul_assoc ..).symm
    _ < (2 ^ 54 - 1) * (2 ^ j * 2 ^ k) := Nat.mul_lt_mul_of_pos_right (by decide)
        (Nat.mul_pos (Nat.two_pow_pos j) (Nat.two_pow_pos k))
    _ = (2 ^ 54 - 1) * 2 ^ j * 2 ^ k := (Nat.mul_assoc ..).symm

/-- Numbers end well below the limit. -/
theorem size?_lt (h : x.size? = some u) : u < limit * 2 ^ 1074 := by
  cases x with
  | finite s m e hc =>
    obtain rfl : m * 2 ^ e = u := Option.some.inj h
    rw [limit]
    exact lt_of_canonical (j := 970) (k := 1074) hc.1 hc.2.1
  | _ => cases h

/-! ### Quotients to the nearest natural number -/

theorem divNearest_lt_iff {k : Nat} (hden : 0 < den) (hk : k % 2 = 0) :
    divNearest num den < k ↔ 2 * num < (2 * k - 1) * den := by
  have hnum := Nat.div_add_mod num den
  have hrest := Nat.mod_lt num hden
  have hlow := le_divNearest num den
  have hhigh := divNearest_le num den
  rcases Nat.lt_trichotomy (num / den + 1) k with h | rfl | h
  · have hmul : (2 * (num / den) + 3) * den ≤ (2 * k - 1) * den :=
      Nat.mul_le_mul_right den (by omega)
    have hsplit : (2 * (num / den) + 3) * den = 2 * (den * (num / den)) + 3 * den := by
      rw [Nat.add_mul, Nat.mul_assoc, Nat.mul_comm (num / den)]
    exact iff_of_true (by omega) (by omega)
  · -- a tie goes up here, to the even one
    have hsplit : (2 * (num / den + 1) - 1) * den = 2 * (den * (num / den)) + den := by
      rw [show 2 * (num / den + 1) - 1 = 2 * (num / den) + 1 by omega, Nat.add_mul, Nat.one_mul,
        Nat.mul_assoc, Nat.mul_comm (num / den)]
    rw [hsplit, divNearest]
    split <;> omega
  · have hmul : (2 * k - 1) * den ≤ 2 * (num / den) * den := Nat.mul_le_mul_right den (by omega)
    have hsplit : 2 * (num / den) * den = 2 * (den * (num / den)) := by
      rw [Nat.mul_assoc, Nat.mul_comm (num / den)]
    exact iff_of_false (by omega) (by omega)

theorem divNearest_mono {num' : Nat} (h : num ≤ num') :
    divNearest num den ≤ divNearest num' den := by
  have hdiv : num / den ≤ num' / den := Nat.div_le_div_right h
  rcases Nat.lt_or_eq_of_le hdiv with hlt | heq
  · have hlow := le_divNearest num' den
    have hhigh := divNearest_le num den
    omega
  · have hnum := Nat.div_add_mod num den
    have hnum' := Nat.div_add_mod num' den
    rw [← heq] at hnum'
    rw [divNearest, divNearest, ← heq]
    split <;> split <;> omega

/-! ### Rounding -/

/-- The exponent that a quotient is rounded with. -/
def roundExponent (num den : Nat) : Nat :=
  (num * 2 ^ 1074 / den).log2 - 52

/-- Its significand, which may have come to `2 ^ 53`. -/
def roundSignificand (num den : Nat) : Nat :=
  divNearest (num * 2 ^ 1074) (den * 2 ^ roundExponent num den)

theorem round_eq (negative : Bool) (num den : Nat) : round negative num den =
    if roundSignificand num den = 2 ^ 53 then
      ofParts negative (2 ^ 52) (roundExponent num den + 1)
    else ofParts negative (roundSignificand num den) (roundExponent num den) :=
  rfl

theorem roundSignificand_bounds (num den : Nat) : roundSignificand num den ≤ 2 ^ 53 ∧
    (0 < roundExponent num den → 2 ^ 52 ≤ roundSignificand num den) := by
  obtain ⟨hlt, hbits⟩ := scaled_bounds (num * 2 ^ 1074 / den)
  have hlow := le_divNearest (num * 2 ^ 1074) (den * 2 ^ roundExponent num den)
  have hhigh := divNearest_le (num * 2 ^ 1074) (den * 2 ^ roundExponent num den)
  rw [← Nat.div_div_eq_div_mul] at hlow hhigh
  exact ⟨Nat.le_trans hhigh hlt, fun he => Nat.le_trans (hbits he).1 hlow⟩

theorem size?_ofParts {m e : Nat} : (ofParts negative m e).size? =
    if Canonical m e then some (m * 2 ^ e) else none := by
  rw [ofParts]
  split <;> rfl

/-- A significand that carries makes no difference to the number. -/
theorem size?_round_eq (negative : Bool) (num den : Nat) : (round negative num den).size? =
    if roundExponent num den < 2045 ∨
        roundExponent num den = 2045 ∧ roundSignificand num den < 2 ^ 53 then
      some (roundSignificand num den * 2 ^ roundExponent num den)
    else none := by
  obtain ⟨hhigh, hlow⟩ := roundSignificand_bounds num den
  rw [round_eq]
  generalize roundSignificand num den = m at *
  generalize roundExponent num den = e at *
  by_cases hm : m = 2 ^ 53
  · have hvalue : 2 ^ 52 * 2 ^ (e + 1) = m * 2 ^ e := by
      rw [hm, Nat.pow_succ' (n := e), ← Nat.mul_assoc]
    have hiff : Canonical (2 ^ 52) (e + 1) ↔ e < 2045 ∨ e = 2045 ∧ m < 2 ^ 53 :=
      ⟨fun h => .inl h.2.1, fun h => ⟨by decide, by omega, .inr (Nat.le_refl _)⟩⟩
    rw [if_pos hm, size?_ofParts, hvalue]
    simp only [hiff]
  · have hiff : Canonical m e ↔ e < 2045 ∨ e = 2045 ∧ m < 2 ^ 53 := by
      rw [Canonical]
      omega
    rw [if_neg hm, size?_ofParts]
    simp only [hiff]

/-- A quotient with more bits than the greatest number overflows, one with fewer does not, and among
those with as many the significand tells. -/
theorem fits_iff_scaled {scaled bound j k : Nat} (hden : 0 < den)
    (hbound : bound = (2 ^ 54 - 1) * 2 ^ j) :
    ((scaled / den).log2 - 52 < j + k + 1 ∨ (scaled / den).log2 - 52 = j + k + 1 ∧
      divNearest scaled (den * 2 ^ ((scaled / den).log2 - 52)) < 2 ^ 53) ↔
    scaled < bound * den * 2 ^ k := by
  rw [hbound, Nat.mul_right_comm _ den, Nat.mul_assoc _ (2 ^ j), ← Nat.pow_add]
  generalize j + k = k
  have hbits (j : Nat) (hj : 0 < j) : (scaled / den).log2 < j ↔ scaled < 2 ^ j * den := by
    rw [← Nat.div_lt_iff_lt_mul hden]
    rcases Nat.eq_zero_or_pos (scaled / den) with h | h
    · rw [h]
      exact iff_of_true hj (Nat.two_pow_pos j)
    · exact Nat.log2_lt (Nat.ne_of_gt h)
  have hlow : 2 ^ (53 + k) * den ≤ (2 ^ 54 - 1) * 2 ^ k * den := by
    rw [Nat.pow_add]
    exact Nat.mul_le_mul_right den (Nat.mul_le_mul_right _ (by decide))
  have hhigh : (2 ^ 54 - 1) * 2 ^ k * den ≤ 2 ^ (54 + k) * den := by
    rw [Nat.pow_add]
    exact Nat.mul_le_mul_right den (Nat.mul_le_mul_right _ (by decide))
  have hlast : (scaled / den).log2 - 52 = k + 1 →
      (divNearest scaled (den * 2 ^ ((scaled / den).log2 - 52)) < 2 ^ 53 ↔
        scaled < (2 ^ 54 - 1) * 2 ^ k * den) := by
    intro he
    have htwice : (2 * 2 ^ 53 - 1) * (den * (2 ^ k * 2)) = 2 * ((2 ^ 54 - 1) * 2 ^ k * den) := by
      rw [Nat.mul_right_comm _ (2 ^ k), Nat.mul_assoc _ den, ← Nat.mul_assoc den]
      omega
    rw [he, divNearest_lt_iff (Nat.mul_pos hden (Nat.two_pow_pos _)) (by decide),
      Nat.pow_succ (m := k), htwice, Nat.mul_lt_mul_left (by decide)]
  have hless := hbits (53 + k) (by omega)
  have hmore := hbits (54 + k) (by omega)
  generalize (2 ^ 54 - 1) * 2 ^ k * den = bound at *
  generalize 2 ^ (53 + k) * den = least at *
  generalize 2 ^ (54 + k) * den = most at *
  generalize (scaled / den).log2 = bits at *
  omega

/-- A quotient is rounded to a finite number exactly when it is below the limit. -/
theorem round_fits_iff (hden : 0 < den) : (roundExponent num den < 2045 ∨
    roundExponent num den = 2045 ∧ roundSignificand num den < 2 ^ 53) ↔ num < limit * den := by
  have hlimit : limit = (2 ^ 54 - 1) * 2 ^ 970 := by rw [limit]
  exact (fits_iff_scaled hden hlimit).trans (Nat.mul_lt_mul_right (Nat.two_pow_pos 1074))

theorem size?_round (hden : 0 < den) : (round negative num den).size? =
    if num < limit * den then some (roundSignificand num den * 2 ^ roundExponent num den)
    else none := by
  rw [size?_round_eq]
  simp only [round_fits_iff hden]

theorem isFinite_round_iff (hden : 0 < den) :
    (round negative num den).isFinite = true ↔ num < limit * den := by
  rw [isFinite_iff, size?_round hden]
  split
  · exact iff_of_true ⟨_, rfl⟩ ‹_›
  · exact iff_of_false nofun ‹_›

theorem log2_mono {m n : Nat} (h : m ≤ n) : m.log2 ≤ n.log2 := by
  rcases Nat.eq_zero_or_pos m with rfl | hm
  · exact Nat.zero_le _
  · rw [Nat.le_log2 (by omega)]
    exact Nat.le_trans (Nat.log2_self_le (by omega)) h

theorem round_mono {num' : Nat} (hden : 0 < den) (h : num ≤ num')
    (hv : (round negative num' den).size? = some v) :
    ∃ u, (round negative num den).size? = some u ∧ u ≤ v := by
  rw [size?_round hden] at hv ⊢
  split at hv
  · rename_i hfits
    refine ⟨_, if_pos (Nat.lt_of_le_of_lt h hfits), ?_⟩
    rw [← Option.some.inj hv]
    have hscaled : num * 2 ^ 1074 ≤ num' * 2 ^ 1074 := Nat.mul_le_mul_right _ h
    have hexp : roundExponent num den ≤ roundExponent num' den :=
      Nat.sub_le_sub_right (log2_mono (Nat.div_le_div_right hscaled)) 52
    rcases Nat.lt_or_eq_of_le hexp with hlt | heq
    · -- the greater exponent makes up for the least significand
      have hless := (roundSignificand_bounds num den).1
      have hmore := (roundSignificand_bounds num' den).2 (Nat.zero_lt_of_lt hlt)
      calc roundSignificand num den * 2 ^ roundExponent num den
          ≤ 2 ^ 53 * 2 ^ roundExponent num den := Nat.mul_le_mul_right _ hless
        _ = 2 ^ 52 * 2 ^ (roundExponent num den + 1) := by
          rw [Nat.pow_succ' (n := roundExponent num den), ← Nat.mul_assoc]
        _ ≤ roundSignificand num' den * 2 ^ roundExponent num' den :=
          Nat.mul_le_mul hmore (Nat.pow_le_pow_right (by decide) hlt)
    · rw [roundSignificand, roundSignificand, ← heq]
      exact Nat.mul_le_mul_right _ (divNearest_mono hscaled)
  · cases hv

/-! ### Products and quotients -/

theorem isFinite_mul_iff (hu : x.size? = some u) (hv : y.size? = some v) :
    (x * y).isFinite = true ↔ u * v < limit * 2 ^ 2148 := by
  cases x with
  | finite s m e hc =>
    cases y with
    | finite t n f hd =>
      cases hu
      cases hv
      rw [mul_finite, isFinite_round_iff (Nat.two_pow_pos 2148), Nat.pow_add,
        Nat.mul_mul_mul_comm]
    | _ => cases hv
  | _ => cases hu

/-- Nothing grows by being divided by a number that is one at least. -/
theorem isFinite_div (hu : x.size? = some u) (hv : y.size? = some v) (hone : 2 ^ 1074 ≤ v) :
    (x / y).isFinite = true := by
  have hlt : u < limit * v := Nat.lt_of_lt_of_le (size?_lt hu) (Nat.mul_le_mul_left limit hone)
  have hpos : 0 < v := Nat.lt_of_lt_of_le (Nat.two_pow_pos 1074) hone
  cases x with
  | finite s m e hc =>
    cases y with
    | finite t n f hd =>
      obtain rfl : m * 2 ^ e = u := Option.some.inj hu
      obtain rfl : n * 2 ^ f = v := Option.some.inj hv
      have hn : n ≠ 0 := by
        rintro rfl
        rw [Nat.zero_mul] at hpos
        exact absurd hpos (Nat.lt_irrefl 0)
      change (div _ _).isFinite = true
      rw [div, if_neg hn, isFinite_round_iff hpos]
      exact hlt
    | _ => cases hv
  | _ => cases hu

end CloudClient.Binary64
