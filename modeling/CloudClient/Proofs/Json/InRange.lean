import CloudClient.Proofs.Json.Numerals
import CloudClient.Proofs.Numeric.Parsed

/-!
Numbers in range. A numeral is never read as anything but a finite number, and one of seventeen
digits at most is read as long as it stands for no more than the greatest number in that many
digits: the reader loses a little, but not so much that this would overflow.
-/

namespace CloudClient.Json

open Binary64

variable {x y : Binary64} {exponent : Int} {k : Numeral} {m : Number}

/-! ### What is read is finite -/

theorem isFinite_ofNat {n : Nat} (h : n < 2 ^ 64) : (ofNat n).isFinite = true := by
  rw [ofNat, isFinite_round_iff Nat.one_pos, Nat.mul_one]
  exact lt_limit (Nat.le_of_lt h)

theorem isFinite_ofInt {i : Int} (h : i.natAbs ≤ 2 ^ 64) : (ofInt i).isFinite = true := by
  rw [ofInt, isFinite_round_iff Nat.one_pos, Nat.mul_one]
  exact lt_limit h

theorem takeUp_lt {significand : Nat} {ds : List Nat} (h : significand < 2 ^ 64) :
    (takeUp significand ds).1 < 2 ^ 64 := by
  induction ds generalizing significand with
  | nil => exact h
  | cons d ds ih =>
    rw [takeUp]
    split
    · exact ih ‹_›
    · exact h

theorem ofDecimal_one {e : Nat} (he : e ≤ 308) : ofDecimal false 1 e = round false (10 ^ e) 1 := by
  have hlength : (Nat.toDigits 10 1).length = 1 := rfl
  rw [ofDecimal, hlength, if_neg (by omega), if_neg (by omega), if_pos (Int.natCast_nonneg e),
    Int.toNat_natCast, Nat.one_mul]

theorem power_mono {e e' v : Nat} (h : e ≤ e') (he' : e' ≤ 308)
    (hv : (ofDecimal false 1 e').size? = some v) :
    ∃ u, (ofDecimal false 1 e).size? = some u ∧ u ≤ v := by
  rw [ofDecimal_one he'] at hv
  rw [ofDecimal_one (Nat.le_trans h he')]
  exact round_mono Nat.one_pos (Nat.pow_le_pow_right (by decide) h) hv

/-- The most that is multiplied with a power of ten. -/
def most (e : Nat) : Nat :=
  Nat.min (10 ^ 17) (greatest / 10 ^ e)

/-- Zero, the least and the greatest power of ten, and the greatest products: what bounds all that
is between. -/
theorem extremes : (ofNat 0).isZero = true ∧
    (ofDecimal false 1 (0 : Nat)).size? = some (2 ^ 1074) ∧
    (ofDecimal false 1 (308 : Nat)).isFinite = true ∧
    ∀ k < 18, (ofNat (most (291 + k)) * ofDecimal false 1 (291 + k : Nat)).isFinite = true := by
  decide +kernel

/-- The powers of ten that the reader multiplies and divides by. -/
theorem exists_power {e : Nat} (he : e ≤ 308) :
    ∃ v, (ofDecimal false 1 e).size? = some v ∧ 2 ^ 1074 ≤ v := by
  obtain ⟨_, hfirst, hlast, _⟩ := extremes
  obtain ⟨w, hw⟩ := isFinite_iff.1 hlast
  obtain ⟨v, hv, _⟩ := power_mono he (Nat.le_refl 308) hw
  obtain ⟨u, hu, huv⟩ := power_mono (Nat.zero_le e) he hv
  rw [hfirst] at hu
  exact ⟨v, hv, Option.some.inj hu ▸ huv⟩

theorem isFinite_div_power {e : Nat} (hx : x.isFinite = true) (he : e ≤ 308) :
    (x / ofDecimal false 1 e).isFinite = true := by
  obtain ⟨u, hu⟩ := isFinite_iff.1 hx
  obtain ⟨v, hv, hone⟩ := exists_power he
  exact isFinite_div hu hv hone

theorem isFinite_scaled {divisions : Nat} (hx : x.isFinite = true)
    (h : scaled x exponent divisions = .ok y) : y.isFinite = true := by
  induction divisions generalizing x exponent with
  | zero =>
    cases h
    exact hx
  | succ divisions ih =>
    rw [scaled] at h
    split at h
    case isTrue hsmall =>
      split at h
      · dsimp only at h
        split at h
        · cases h
          assumption
        · cases h
      · cases h
        exact isFinite_div_power hx hsmall
    case isFalse =>
      split at h
      · cases h
        exact hx
      · split at h
        · cases h
        · exact ih (isFinite_div_power (e := 308) hx (Nat.le_refl _)) h

theorem isFinite_signed {negative : Bool} (hx : x.isFinite = true) :
    (if negative then -x else x).isFinite = true := by
  split
  · rw [isFinite_neg, hx]
  · exact hx

theorem Numeral.isFinite_float {significand : Nat} (hs : significand < 2 ^ 64)
    (h : k.float significand exponent = .ok x) : x.isFinite = true := by
  rw [Numeral.float] at h
  dsimp only at h
  split at h
  · cases hscaled : scaled (ofNat significand) (exponent + _) 4 with
    | error f =>
      rw [hscaled] at h
      cases h
    | ok y =>
      rw [hscaled] at h
      cases h
      exact isFinite_signed (isFinite_scaled (isFinite_ofNat hs) hscaled)
  · split at h
    · cases h
      exact isFinite_signed rfl
    · cases h

theorem Integer.natAbs_le (i : Integer) : i.val.natAbs ≤ 2 ^ 64 := by
  have := i.inRange
  omega

/-- A numeral is read as a finite number or not at all. -/
theorem Numeral.isFinite_of_value (h : k.value = .ok m) : m.toBinary64.isFinite = true := by
  rw [Numeral.value] at h
  have hwhole : (takeUp 0 k.whole).1 < 2 ^ 64 := takeUp_lt (by decide)
  generalize takeUp 0 k.whole = taken at h hwhole
  obtain ⟨significand, dropped⟩ := taken
  dsimp only at h hwhole
  split at h
  · split at h
    · cases h
      split
      · exact isFinite_neg zero
      · exact isFinite_ofInt (Integer.natAbs_le _)
    · cases h
      refine isFinite_ofInt ?_
      split <;> omega
  · have hall : (takeUp significand k.fraction).1 < 2 ^ 64 := takeUp_lt hwhole
    generalize takeUp significand k.fraction = taken at h hall
    obtain ⟨significand', ignored⟩ := taken
    dsimp only at h hall
    cases hfloat : k.float significand' (dropped - (k.fraction.length - ignored : Nat)) with
    | error f =>
      rw [hfloat] at h
      cases h
    | ok x =>
      rw [hfloat] at h
      cases h
      exact Numeral.isFinite_float hall hfloat

/-! ### What is read -/

theorem isFinite_mul_power {significand e : Nat} (he : e ≤ 308) (hdigits : significand ≤ 10 ^ 17)
    (h : significand * 10 ^ e ≤ greatest) :
    (ofNat significand * ofDecimal false 1 e).isFinite = true := by
  -- up to there the number of digits is the only bound
  obtain ⟨k, hk, hek, hle⟩ : ∃ k < 18, e ≤ 291 + k ∧ significand ≤ most (291 + k) := by
    have hle (e : Nat) (h : significand * 10 ^ e ≤ greatest) : significand ≤ most e :=
      Nat.le_min.2 ⟨hdigits, (Nat.le_div_iff_mul_le (Nat.pow_pos (by decide))).2 h⟩
    rcases Nat.le_total e 291 with hsmall | hlarge
    · exact ⟨0, by decide, hsmall, hle 291 (le_greatest hdigits)⟩
    · obtain ⟨k, rfl⟩ := Nat.exists_eq_add_of_le hlarge
      exact ⟨k, by omega, Nat.le_refl _, hle _ h⟩
  have hmost := extremes.2.2.2 k hk
  have hbound : 291 + k ≤ 308 := by omega
  have hsmall : most (291 + k) < 2 ^ 64 := Nat.lt_of_le_of_lt (Nat.min_le_left _ _) (by decide)
  generalize 291 + k = e' at *
  obtain ⟨w, hw⟩ := isFinite_iff.1 (isFinite_ofNat hsmall)
  obtain ⟨v', hv', _⟩ := exists_power hbound
  obtain ⟨u, hu, huw⟩ := round_mono Nat.one_pos hle hw
  obtain ⟨v, hv, hvv⟩ := power_mono hek hbound hv'
  rw [isFinite_mul_iff hw hv'] at hmost
  exact (isFinite_mul_iff hu hv).2 (Nat.lt_of_le_of_lt (Nat.mul_le_mul huw hvv) hmost)

theorem exists_scaled_of_neg {divisions : Nat} (h : exponent < 0) :
    ∃ y, scaled x exponent divisions = .ok y := by
  induction divisions generalizing x exponent with
  | zero => exact ⟨x, rfl⟩
  | succ divisions ih =>
    rw [scaled, if_neg (Int.not_le.2 h), if_neg (Int.not_le.2 h)]
    split
    · exact ⟨_, rfl⟩
    · split
      · exact ⟨x, rfl⟩
      · exact ih (by omega)

theorem exists_scaled {significand : Nat} (divisions : Nat) (hdigits : significand ≤ 10 ^ 17)
    (h : decimalValue significand exponent ≤ greatest) :
    ∃ y, scaled (ofNat significand) exponent divisions = .ok y := by
  rcases Int.lt_or_le exponent 0 with hneg | hexp
  · exact exists_scaled_of_neg hneg
  obtain ⟨e, rfl⟩ := Int.eq_ofNat_of_zero_le hexp
  rw [decimalValue_natCast, Nat.cast_le] at h
  cases divisions with
  | zero => exact ⟨_, rfl⟩
  | succ divisions =>
    rw [scaled, if_pos hexp, Int.natAbs_natCast]
    split
    case isTrue hsmall => exact ⟨_, if_pos (isFinite_mul_power hsmall hdigits h)⟩
    case isFalse hlarge =>
      -- only zero is in range with such an exponent
      rcases Nat.eq_zero_or_pos significand with rfl | hpos
      · exact ⟨_, if_pos extremes.1⟩
      · have hpow (j : Nat) (hj : j ≤ e) : 10 ^ j ≤ significand * 10 ^ e :=
          Nat.le_trans (Nat.pow_le_pow_right (by decide) hj) (Nat.le_mul_of_pos_left _ hpos)
        exact absurd h (Nat.not_le_of_lt (Nat.lt_of_lt_of_le greatest_lt (hpow 309 (by omega))))

theorem ofDigits_le_append (ds es : List Nat) :
    Text.ofDigits 10 ds ≤ Text.ofDigits 10 (ds ++ es) := by
  rw [Text.ofDigits, Text.ofDigits, List.foldl_append]
  exact le_foldl _ es

/-- A number of seventeen digits at most is read when it is not too large. An exponent that is too
long to be read is no harm where it is negative. -/
theorem Numeral.exists_value (hdigits : Text.ofDigits 10 (k.whole ++ k.fraction) ≤ 10 ^ 17)
    (hexp : k.exponent? = none → k.exponent.any (·.1) = true)
    (h : ∀ e, k.exponent? = some e →
      decimalValue (Text.ofDigits 10 (k.whole ++ k.fraction)) (e - k.fraction.length) ≤ greatest) :
    ∃ m, k.value = .ok m := by
  have hlt : Text.ofDigits 10 (k.whole ++ k.fraction) < 2 ^ 64 :=
    Nat.lt_of_le_of_lt hdigits (by decide)
  have hwhole : takeUp 0 k.whole = (Text.ofDigits 10 k.whole, 0) :=
    takeUp_of_lt (Nat.lt_of_le_of_lt (ofDigits_le_append k.whole k.fraction) hlt)
  have hall : takeUp (Text.ofDigits 10 k.whole) k.fraction =
      (Text.ofDigits 10 (k.whole ++ k.fraction), 0) := by
    have hfold : k.fraction.foldl (fun n d => n * 10 + d) (Text.ofDigits 10 k.whole) =
        Text.ofDigits 10 (k.whole ++ k.fraction) := List.foldl_append.symm
    rw [takeUp_of_lt (hfold ▸ hlt), hfold]
  rw [Numeral.value, hwhole]
  dsimp only
  split
  · split <;> exact ⟨_, rfl⟩
  · rw [hall, Numeral.float]
    dsimp only
    split
    case h_1 e he =>
      have hshift : ((0 : Nat) - (k.fraction.length - 0 : Nat) : Int) + e =
          e - k.fraction.length := by omega
      obtain ⟨y, hy⟩ := exists_scaled 4 hdigits (h e he)
      rw [hshift, hy]
      exact ⟨_, rfl⟩
    case h_2 hnone =>
      rw [if_pos (.inr (hexp hnone))]
      exact ⟨_, rfl⟩

end CloudClient.Json
