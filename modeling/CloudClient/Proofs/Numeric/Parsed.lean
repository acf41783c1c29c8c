import CloudClient.Numeric.Decimal
import CloudClient.Proofs.Numeric.Overflow
import Mathlib.Algebra.Order.Field.Power
import Mathlib.Data.Rat.Cast.Order
import Mathlib.Tactic.Positivity

/-!
Which texts are read as finite numbers: all numerals but those that are too large. The words that
are read as well name none.
-/

namespace CloudClient.Binary64

variable {significand : Nat} {exponent : Int} {negative : Bool}

/-- The number that a decimal stands for. -/
def decimalValue (significand : Nat) (exponent : Int) : ℚ :=
  significand * 10 ^ exponent

theorem decimalValue_natCast (significand k : Nat) :
    decimalValue significand k = (significand * 10 ^ k : Nat) := by
  rw [decimalValue, zpow_natCast, Nat.cast_mul, Nat.cast_pow, Nat.cast_ofNat]

theorem decimalValue_lt {places : Nat} (h : significand < 10 ^ places) :
    decimalValue significand exponent < 10 ^ (places + exponent : Int) := by
  have hcast : (significand : ℚ) < 10 ^ places := by exact_mod_cast h
  rw [decimalValue, zpow_add₀ (by decide), zpow_natCast]
  exact mul_lt_mul_of_pos_right hcast (by positivity)

theorem le_decimalValue {places : Nat} (h : 10 ^ places ≤ significand) :
    10 ^ (places + exponent : Int) ≤ decimalValue significand exponent := by
  have hcast : (10 : ℚ) ^ places ≤ significand := by exact_mod_cast h
  rw [decimalValue, zpow_add₀ (by decide), zpow_natCast]
  exact mul_le_mul_of_nonneg_right hcast (by positivity)

theorem exists_neg {z : Int} (h : ¬ 0 ≤ z) : ∃ k : Nat, z = -k :=
  ⟨z.natAbs, by omega⟩

/-- A number has as many digits as it needs. -/
theorem length_toDigits_bounds (n : Nat) : n < 10 ^ (Nat.toDigits 10 n).length ∧
    (0 < n → 10 ^ ((Nat.toDigits 10 n).length - 1) ≤ n) := by
  have hpos : 0 < (Nat.toDigits 10 n).length := Nat.length_toDigits_pos
  refine ⟨(Nat.length_toDigits_le_iff (by decide) hpos).1 (Nat.le_refl _), fun hn => ?_⟩
  rcases Nat.eq_zero_or_pos ((Nat.toDigits 10 n).length - 1) with hzero | hmore
  · rw [hzero]
    exact hn
  · refine Nat.not_lt.1 fun hless => ?_
    have := (Nat.length_toDigits_le_iff (by decide) hmore).2 hless
    omega

/-- The greatest number in seventeen digits. -/
def greatest : Nat := 17976931348623157 * 10 ^ 292

theorem greatest_lt : greatest < 10 ^ 309 := by
  have hplaces : 309 = 17 + 292 := rfl
  rw [greatest, hplaces, Nat.pow_add 10 17 292]
  have hpow (k : Nat) : 0 < 10 ^ k := Nat.pow_pos (by decide)
  have hpos := hpow 292
  generalize 10 ^ 292 = p at *
  omega

theorem le_greatest {n : Nat} (h : n ≤ 10 ^ 17) : n * 10 ^ 291 ≤ greatest := by
  have hmul (p : Nat) : n * p ≤ 17976931348623157 * (10 ^ 1 * p) := by
    rw [← Nat.mul_assoc]
    exact Nat.mul_le_mul_right p (Nat.le_trans h (by decide))
  have hplaces : 292 = 1 + 291 := rfl
  rw [greatest, hplaces, Nat.pow_add 10 1 291]
  generalize 10 ^ 291 = p
  exact hmul p

theorem two_pow_le (k j : Nat) (h : k ≤ 3 * j) : 2 ^ k ≤ 10 ^ j :=
  calc 2 ^ k ≤ 2 ^ (3 * j) := Nat.pow_le_pow_right (by decide) h
    _ = 8 ^ j := Nat.pow_mul 2 3 j
    _ ≤ 10 ^ j := Nat.pow_le_pow_left (by decide) j

theorem limit_le : limit ≤ 10 ^ 400 := by
  have hpow := two_pow_le (54 + 970) 400 (by decide)
  rw [Nat.pow_add 2 54 970] at hpow
  rw [limit]
  generalize 2 ^ 970 = p at *
  omega

/-- Far below the limit, and far above it. -/
theorem limit_bounds : (1 : ℚ) < limit ∧ (limit : ℚ) ≤ 10 ^ 400 := by
  have hcast (k : Nat) : ((10 ^ k : Nat) : ℚ) = 10 ^ k := by
    rw [Nat.cast_pow, Nat.cast_ofNat]
  exact ⟨Nat.one_lt_cast.2 (lt_limit (by decide)), (Nat.cast_le.2 limit_le).trans_eq (hcast 400)⟩

theorem isFinite_ofDecimal_iff : (ofDecimal negative significand exponent).isFinite = true ↔
    decimalValue significand exponent < limit := by
  obtain ⟨hone, hhuge⟩ := limit_bounds
  rw [ofDecimal]
  obtain ⟨hlt, hleast⟩ := length_toDigits_bounds significand
  generalize (Nat.toDigits 10 significand).length = length at hlt hleast ⊢
  split
  case isTrue hsmall =>
    have hzero : 0 < limit * 1 := Nat.mul_pos (lt_limit (Nat.zero_le _)) Nat.one_pos
    refine iff_of_true ((isFinite_round_iff Nat.one_pos).2 hzero) ?_
    rcases hsmall with rfl | hsmall
    · rw [decimalValue, Nat.cast_zero, zero_mul]
      exact zero_lt_one.trans hone
    · have hpow : (10 : ℚ) ^ (length + exponent : Int) ≤ 10 ^ (0 : Int) :=
        zpow_le_zpow_right₀ (by norm_num) (by omega)
      exact (decimalValue_lt hlt).trans_le (hpow.trans hone.le)
  case isFalse hsmall =>
    rw [not_or] at hsmall
    split
    case isTrue hlarge =>
      refine iff_of_false nofun (not_lt_of_ge ?_)
      have hpow : (10 : ℚ) ^ (400 : Int) ≤ 10 ^ ((length - 1 : Nat) + exponent : Int) :=
        zpow_le_zpow_right₀ (by norm_num) (by omega)
      exact hhuge.trans (hpow.trans (le_decimalValue (hleast (Nat.pos_of_ne_zero hsmall.1))))
    case isFalse hlarge =>
      split
      case isTrue hexp =>
        obtain ⟨k, rfl⟩ := Int.eq_ofNat_of_zero_le hexp
        rw [isFinite_round_iff Nat.one_pos, Nat.mul_one, decimalValue_natCast, Int.toNat_natCast,
          Nat.cast_lt]
      case isFalse hexp =>
        obtain ⟨k, rfl⟩ := exists_neg hexp
        have hpow : (0 : ℚ) < 10 ^ k := by positivity
        rw [isFinite_round_iff (Nat.pow_pos (by decide)), decimalValue, Int.neg_neg,
          Int.toNat_natCast, zpow_neg, zpow_natCast, ← div_eq_mul_inv, div_lt_iff₀ hpow]
        exact_mod_cast Iff.rfl

/-! ### Texts -/

/-- The digits after a point, and what is left. -/
def takeFraction : List Char → List Nat × List Char
  | '.' :: cs => takeDigits cs
  | cs => ([], cs)

/-- The digits and the power of ten of an unsigned numeral. -/
def numeral? (cs : List Char) : Option (Nat × Int) :=
  let (whole, rest) := takeDigits cs
  let (fraction, rest) := takeFraction rest
  if whole.isEmpty && fraction.isEmpty then none
  else (exponentOf? rest).map fun exponent =>
    (Text.ofDigits 10 (whole ++ fraction), exponent - fraction.length)

theorem magnitude?_eq (negative : Bool) (cs : List Char) :
    magnitude? negative cs = (numeral? cs).map fun d => ofDecimal negative d.1 d.2 := by
  have hmagnitude : magnitude? negative cs =
      if (takeDigits cs).1.isEmpty && (takeFraction (takeDigits cs).2).1.isEmpty then none
      else (exponentOf? (takeFraction (takeDigits cs).2).2).map fun exponent =>
        ofDecimal negative
          (Text.ofDigits 10 ((takeDigits cs).1 ++ (takeFraction (takeDigits cs).2).1))
          (exponent - (takeFraction (takeDigits cs).2).1.length) := rfl
  rw [hmagnitude, numeral?]
  dsimp only
  split
  · rfl
  · rw [Option.map_map]
    rfl

/-- Whether a text begins with a minus sign, and what follows its sign. -/
def splitSign (s : String) : Bool × List Char :=
  match s.toList with
  | '-' :: cs => (true, cs)
  | '+' :: cs => (false, cs)
  | cs => (false, cs)

/-- A text that is read as a number, if at all, but as none that is finite: by name, or by its
size. -/
def Boundless (s : String) : Prop :=
  String.ofList ((splitSign s).2.map Char.toLower) ∈ ["inf", "infinity", "nan"] ∨
    ∃ d ∈ numeral? (splitSign s).2, (limit : ℚ) ≤ decimalValue d.1 d.2

/-- A text after its sign, as a number. -/
def parseUnsigned (negative : Bool) (cs : List Char) : Except NumeralFault Binary64 :=
  let word := String.ofList (cs.map Char.toLower)
  if word = "inf" ∨ word = "infinity" then .ok (.infinite negative)
  else if word = "nan" then .ok .nan
  else match magnitude? negative cs with
    | some x => .ok x
    | none => .error .invalid

theorem parse_eq (s : String) : parse s =
    if s.isEmpty then .error .empty else parseUnsigned (splitSign s).1 (splitSign s).2 :=
  rfl

theorem isFinite_parse_iff {s : String} {x : Binary64} (h : parse s = .ok x) :
    x.isFinite = true ↔ ¬ Boundless s := by
  rw [parse_eq] at h
  split at h
  · cases h
  rw [parseUnsigned] at h
  rw [Boundless]
  generalize (splitSign s).2 = cs at h ⊢
  split at h
  case isTrue hword =>
    cases h
    refine iff_of_false nofun (not_not.2 (.inl ?_))
    rcases hword with hword | hword <;> rw [hword] <;> decide
  case isFalse hword =>
    split at h
    case isTrue hnan =>
      cases h
      refine iff_of_false nofun (not_not.2 (.inl ?_))
      rw [hnan]
      decide
    case isFalse hnan =>
      have hno : String.ofList (cs.map Char.toLower) ∉ ["inf", "infinity", "nan"] := by
        simp only [List.mem_cons, List.not_mem_nil, or_false]
        tauto
      rw [magnitude?_eq] at h
      cases hnumeral : numeral? cs with
      | none =>
        rw [hnumeral] at h
        cases h
      | some d =>
        rw [hnumeral] at h
        cases h
        rw [isFinite_ofDecimal_iff, not_or, ← not_le]
        refine ⟨fun hle => ⟨hno, ?_⟩, fun h hle => h.2 ⟨d, rfl, hle⟩⟩
        rintro ⟨_, ⟨⟩, hless⟩
        exact hle hless

end CloudClient.Binary64
