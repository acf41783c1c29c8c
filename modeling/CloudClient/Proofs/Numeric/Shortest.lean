import CloudClient.Numeric.Shortest
import CloudClient.Proofs.Numeric.Parsed
import Mathlib.Algebra.Order.Floor.Semifield
import Mathlib.Data.Rat.Floor

/-!
The digits that are printed for a number. There are seventeen of them at most, not all of them zero
unless the number is, and what they stand for is not past the numbers that read back as the one that
is printed.
-/

namespace CloudClient.Binary64

variable {num den significand exponent digits : Nat} {scale places : Int} {b : Basin} {tie : Tie}

/-! ### Decimal places -/

theorem leadingZeros_bounds (bound : Nat) (h : num < den) :
    num * 10 ^ leadingZeros num den bound < den ∧
      (den ≤ num * 10 ^ (leadingZeros num den bound + 1) ∨ leadingZeros num den bound = bound) := by
  induction bound generalizing num with
  | zero => exact ⟨by rwa [leadingZeros, Nat.pow_zero, Nat.mul_one], .inr rfl⟩
  | succ bound ih =>
    rw [leadingZeros]
    split
    case isTrue hden => exact ⟨by rwa [Nat.pow_zero, Nat.mul_one], .inl (by rwa [Nat.pow_one])⟩
    case isFalse hden =>
      have hstep (k : Nat) : num * 10 ^ (k + 1) = num * 10 * 10 ^ k := by
        rw [Nat.pow_succ', Nat.mul_assoc]
      obtain ⟨hlow, hhigh⟩ := ih (Nat.not_le.1 hden)
      rw [hstep, hstep]
      exact ⟨hlow, hhigh.imp_right (congrArg (· + 1))⟩

/-- The places before the point are counted right, and those after it as far as is counted. -/
theorem decimalPlaces_bounds (hden : 0 < den) (hcount : den ≤ num * 10 ^ 400) :
    (10 : ℚ) ^ (decimalPlaces num den - 1) ≤ num / den ∧
      (num / den : ℚ) < 10 ^ decimalPlaces num den := by
  have hpos : (0 : ℚ) < den := Nat.cast_pos.2 hden
  rw [le_div_iff₀ hpos, div_lt_iff₀ hpos, decimalPlaces]
  split
  case isTrue hle =>
    obtain ⟨hlt, hge⟩ := length_toDigits_bounds (num / den)
    have hlength : 0 < (Nat.toDigits 10 (num / den)).length := Nat.length_toDigits_pos
    generalize (Nat.toDigits 10 (num / den)).length = length at *
    have hge := hge (Nat.div_pos hle hden)
    rw [Nat.div_lt_iff_lt_mul hden] at hlt
    rw [Nat.le_div_iff_mul_le hden] at hge
    have hexp : (length : Int) - 1 = (length - 1 : Nat) := by omega
    rw [hexp, zpow_natCast, zpow_natCast]
    exact ⟨by exact_mod_cast hge, by exact_mod_cast hlt⟩
  case isFalse hlt =>
    obtain ⟨hlow, hhigh⟩ := leadingZeros_bounds 400 (Nat.not_le.1 hlt)
    generalize leadingZeros num den 400 = zeros at *
    have hreach : den ≤ num * 10 ^ (zeros + 1) := by
      rcases hhigh with hhigh | rfl
      · exact hhigh
      · exact absurd hlow (Nat.not_lt_of_le hcount)
    have hpow (k : Nat) : (0 : ℚ) < 10 ^ k := by positivity
    have hexp : -(zeros : Int) - 1 = -(zeros + 1 : Nat) := by omega
    rw [hexp, zpow_neg, zpow_natCast, zpow_neg, zpow_natCast, inv_mul_le_iff₀ (hpow _),
      lt_inv_mul_iff₀ (hpow _), mul_comm (10 ^ (zeros + 1) : ℚ), mul_comm (10 ^ zeros : ℚ)]
    exact ⟨by exact_mod_cast hreach, by exact_mod_cast hlow⟩

/-! ### Points of a grid -/

/-- The number in the middle of a basin. -/
def Basin.value (b : Basin) : ℚ := b.center / quarters

theorem quarters_bounds : 0 < quarters ∧ quarters ≤ 10 ^ 400 := by
  rw [quarters]
  exact ⟨Nat.two_pow_pos 1076, two_pow_le 1076 400 (by decide)⟩

theorem quarters_pos : (0 : ℚ) < quarters :=
  Nat.cast_pos.2 quarters_bounds.1

/-- Digits and a power of ten without fractions, as `Basin` works with them. -/
theorem decimalValue_eq (digits : Nat) (scale : Int) : decimalValue digits scale =
    (if 0 ≤ scale then digits * 10 ^ scale.toNat else digits : Nat) /
      (if 0 ≤ scale then 1 else 10 ^ (-scale).toNat : Nat) := by
  rw [decimalValue]
  split
  case isTrue hscale =>
    obtain ⟨k, rfl⟩ := Int.eq_ofNat_of_zero_le hscale
    rw [Int.toNat_natCast, zpow_natCast, Nat.cast_one, div_one]
    push_cast
    rfl
  case isFalse hscale =>
    obtain ⟨k, rfl⟩ := exists_neg hscale
    rw [Int.neg_neg, Int.toNat_natCast, zpow_neg, zpow_natCast, ← div_eq_mul_inv]
    push_cast
    rfl

theorem Basin.floor_eq (b : Basin) (scale : Int) : b.floor scale = ⌊b.value / 10 ^ scale⌋₊ := by
  rw [value, floor]
  split
  case isTrue hscale =>
    obtain ⟨k, rfl⟩ := Int.eq_ofNat_of_zero_le hscale
    rw [Int.toNat_natCast, zpow_natCast, div_div, mul_comm (quarters : ℚ)]
    exact_mod_cast (Nat.floor_div_eq_div (K := ℚ) b.center (10 ^ k * quarters)).symm
  case isFalse hscale =>
    obtain ⟨k, rfl⟩ := exists_neg hscale
    rw [Int.neg_neg, Int.toNat_natCast, zpow_neg, zpow_natCast, div_inv_eq_mul, div_mul_eq_mul_div]
    exact_mod_cast (Nat.floor_div_eq_div (K := ℚ) (b.center * 10 ^ k) quarters).symm

/-- The multiple below the middle is the last one. -/
theorem Basin.floor_bounds (b : Basin) (scale : Int) :
    decimalValue (b.floor scale) scale ≤ b.value ∧
      b.value < decimalValue (b.floor scale + 1) scale := by
  have hpow : (0 : ℚ) < 10 ^ scale := by positivity
  have hvalue : 0 ≤ b.value / 10 ^ scale := by
    rw [value]
    positivity
  rw [decimalValue, decimalValue, ← le_div_iff₀ hpow, ← div_lt_iff₀ hpow, floor_eq, Nat.cast_add,
    Nat.cast_one]
  exact ⟨Nat.floor_le hvalue, Nat.lt_floor_add_one _⟩

/-- What a basin contains is above zero and not past its end. -/
theorem Basin.bounds_of_contains (hlow : 0 < b.low) (h : b.contains digits scale = true) :
    digits ≠ 0 ∧ decimalValue digits scale ≤ b.high / quarters := by
  have hunit : 0 < if 0 ≤ scale then 1 else 10 ^ (-scale).toNat := by
    split
    · exact Nat.one_pos
    · exact Nat.pow_pos (by decide)
  have hpoint : (if 0 ≤ scale then digits * 10 ^ scale.toNat * quarters else digits * quarters) =
      (if 0 ≤ scale then digits * 10 ^ scale.toNat else digits) * quarters := by
    split <;> rfl
  rw [contains, hpoint] at h
  rw [decimalValue_eq, div_le_div_iff₀ (by exact_mod_cast hunit) quarters_pos]
  generalize (if 0 ≤ scale then 1 else 10 ^ (-scale).toNat) = unit at *
  have hinside : b.low * unit ≤
      (if 0 ≤ scale then digits * 10 ^ scale.toNat else digits) * quarters ∧
      (if 0 ≤ scale then digits * 10 ^ scale.toNat else digits) * quarters ≤ b.high * unit := by
    split at h
    · simpa using h
    · rw [Bool.and_eq_true, decide_eq_true_iff, decide_eq_true_iff] at h
      exact ⟨h.1.le, h.2.le⟩
  refine ⟨?_, by exact_mod_cast hinside.2⟩
  rintro rfl
  have hzero : (if 0 ≤ scale then 0 * 10 ^ scale.toNat else 0) = 0 := by
    split <;> simp
  rw [hzero, Nat.zero_mul, Nat.le_zero, Nat.mul_eq_zero] at hinside
  omega

/-! ### The search -/

/-- Digits that may be printed for the middle of a basin. -/
structure Basin.Admits (b : Basin) (digits : Nat) (scale : Int) : Prop where
  ne_zero : digits ≠ 0
  few : digits ≤ 10 ^ 17
  value_le : decimalValue digits scale ≤ b.high / quarters

/-- A middle of the given magnitude, in a basin that is all above zero. -/
structure Basin.Spans (b : Basin) (places : Int) : Prop where
  low_pos : 0 < b.low
  center_le : b.center ≤ b.high
  least : (10 : ℚ) ^ (places - 1) ≤ b.value
  most : b.value < 10 ^ places

theorem Basin.floor_lt (h : b.Spans places) {k : Nat} : b.floor (places - k) < 10 ^ k := by
  have hpow : (0 : ℚ) < 10 ^ (places - k) := by positivity
  have hlt := (b.floor_bounds (places - k)).1.trans_lt h.most
  rw [decimalValue, ← lt_div_iff₀ hpow, ← zpow_sub₀ (by decide), sub_sub_cancel,
    zpow_natCast] at hlt
  exact_mod_cast hlt

theorem Basin.pick_eq_some (h : b.pick tie scale = some digits) :
    b.contains digits scale = true ∧ digits ≤ b.floor scale + 1 := by
  rw [pick] at h
  split at h
  case h_1 hbelow habove =>
    obtain rfl := Option.some.inj h
    split
    · exact ⟨hbelow, Nat.le_succ _⟩
    · exact ⟨habove, Nat.le_refl _⟩
  case h_2 hbelow _ =>
    obtain rfl := Option.some.inj h
    exact ⟨hbelow, Nat.le_succ _⟩
  case h_3 _ habove =>
    obtain rfl := Option.some.inj h
    exact ⟨habove, Nat.le_refl _⟩
  case h_4 => cases h

theorem Basin.admits_of_pick (h : b.Spans places) {k : Nat} (hk : k ≤ 17)
    (hpick : b.pick tie (places - k) = some digits) : b.Admits digits (places - k) := by
  obtain ⟨hcontains, hle⟩ := pick_eq_some hpick
  obtain ⟨hne, hvalue⟩ := bounds_of_contains h.low_pos hcontains
  have hpow : 10 ^ k ≤ 10 ^ 17 := Nat.pow_le_pow_right (by decide) hk
  have hlt := floor_lt h (k := k)
  exact ⟨hne, by omega, hvalue⟩

/-- The last resort, seventeen digits without a look at whether they read back. -/
theorem Basin.admits_floor (h : b.Spans places) :
    b.Admits (b.floor (places - 17)) (places - 17) where
  ne_zero := by
    intro hzero
    have hlt := h.least.trans_lt (b.floor_bounds (places - 17)).2
    rw [hzero, decimalValue, Nat.zero_add, Nat.cast_one, one_mul,
      zpow_lt_zpow_iff_right₀ (by norm_num)] at hlt
    omega
  few := (floor_lt h (k := 17)).le
  value_le := by
    refine (b.floor_bounds _).1.trans ?_
    rw [value, div_le_div_iff_of_pos_right quarters_pos]
    exact_mod_cast h.center_le

theorem Basin.admits_search (h : b.Spans places) {tries : Nat} (htries : tries ≤ 17) :
    b.Admits (b.search tie places tries).1 (b.search tie places tries).2 := by
  induction tries with
  | zero => exact admits_floor h
  | succ tries ih =>
    rw [search]
    split
    case h_1 digits hpick => exact admits_of_pick h (Nat.sub_le 17 tries) hpick
    case h_2 => exact ih (by omega)

theorem Basin.Admits.stripZeros {bound : Nat} (h : b.Admits digits scale) :
    b.Admits (stripZeros digits scale bound).1 (stripZeros digits scale bound).2 := by
  induction bound generalizing digits scale with
  | zero => exact h
  | succ bound ih =>
    rw [Binary64.stripZeros]
    split
    case isTrue hzero =>
      obtain ⟨k, rfl⟩ : ∃ k, digits = k * 10 := ⟨digits / 10, by omega⟩
      have hvalue : decimalValue k (scale + 1) = decimalValue (k * 10) scale := by
        rw [decimalValue, decimalValue, zpow_add_one₀ (by decide), Nat.cast_mul]
        push_cast
        ring
      rw [Nat.mul_div_cancel k (by decide)]
      refine ih ⟨?_, ?_, hvalue ▸ h.value_le⟩
      · rintro rfl
        exact h.ne_zero (Nat.zero_mul 10)
      · have := h.few
        omega
    case isFalse => exact h

/-! ### Numbers -/

theorem basin_high (significand exponent : Nat) :
    (basin significand exponent).high = (4 * significand + 2) * 2 ^ exponent :=
  (Nat.add_mul ..).symm

/-- All basins but that of the greatest number end before it. -/
theorem basin_high_le {last : Nat} (hm : significand < 2 ^ 53) (he : exponent ≤ last)
    (hne : ¬ (significand = 2 ^ 53 - 1 ∧ exponent = last)) :
    (basin significand exponent).high ≤ (4 * (2 ^ 53 - 2) + 2) * 2 ^ last := by
  rw [basin_high]
  rcases Nat.lt_or_eq_of_le he with hlt | rfl
  · have htwice : (4 * significand + 2) * 2 ^ exponent =
        (2 * significand + 1) * 2 ^ (exponent + 1) := by
      rw [Nat.pow_succ' (n := exponent), ← Nat.mul_assoc]
      exact congrArg (· * 2 ^ exponent) (by omega)
    rw [htwice]
    exact Nat.mul_le_mul (by omega) (Nat.pow_le_pow_right Nat.two_pos hlt)
  · exact Nat.mul_le_mul_right _ (by omega)

theorem basin_low_pos (hm : significand ≠ 0) : 0 < (basin significand exponent).low := by
  have hpow : 0 < 2 ^ exponent := Nat.two_pow_pos exponent
  have hcenter : 4 * 2 ^ exponent ≤ 4 * significand * 2 ^ exponent :=
    Nat.mul_le_mul_right _ (by omega)
  change 0 < 4 * significand * 2 ^ exponent -
    (if significand = 2 ^ 52 ∧ 0 < exponent then 1 else 2) * 2 ^ exponent
  split <;> omega

theorem basin_spans (hm : significand ≠ 0) : (basin significand exponent).Spans
    (decimalPlaces (basin significand exponent).center quarters) := by
  have hcenter : 0 < (basin significand exponent).center :=
    Nat.mul_pos (by omega) (Nat.two_pow_pos exponent)
  have hplaces := decimalPlaces_bounds quarters_bounds.1
    (Nat.le_trans quarters_bounds.2 (Nat.le_mul_of_pos_left _ hcenter))
  exact ⟨basin_low_pos hm, Nat.le_add_right _ _, hplaces.1, hplaces.2⟩

theorem shortest_admits (hm : significand ≠ 0) : (basin significand exponent).Admits
    (shortest tie significand exponent).1 (shortest tie significand exponent).2 := by
  rw [shortest, if_neg hm]
  exact (Basin.admits_search (basin_spans hm) (Nat.le_refl 17)).stripZeros

/-- Past the digits of the greatest number nothing is printed. -/
theorem shortest_value_le (hc : Canonical significand exponent) :
    decimalValue (shortest .toEven significand exponent).1
      (shortest .toEven significand exponent).2 ≤ greatest := by
  by_cases hm : significand = 0
  · rw [shortest, if_pos hm, decimalValue, Nat.cast_zero, zero_mul]
    exact Nat.cast_nonneg _
  by_cases hlast : significand = 2 ^ 53 - 1 ∧ exponent = 2045
  · have hshortest : shortest .toEven (2 ^ 53 - 1) 2045 = (17976931348623157, 292) := by
      decide +kernel
    rw [hlast.1, hlast.2, hshortest, greatest]
    exact (decimalValue_natCast 17976931348623157 292).le
  · refine (shortest_admits hm).value_le.trans ?_
    have hbound : (4 * (2 ^ 53 - 2) + 2) * 2 ^ 2045 ≤ greatest * quarters := by decide +kernel
    have hhigh := Nat.le_trans (basin_high_le hc.1 hc.2.1 hlast) hbound
    rw [div_le_iff₀ quarters_pos]
    exact_mod_cast hhigh

end CloudClient.Binary64
