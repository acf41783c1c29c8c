import CloudClient.Proofs.Json.Floats
import CloudClient.Proofs.Json.InRange
import CloudClient.Proofs.Numeric.Shortest

/-!
Printed numbers are read. The text of a finite number is that of a numeral which stands for the
digits that are printed, and is in range; so it is read as a number, if not always as the same one.
-/

namespace CloudClient.Json

open Binary64 (Canonical Layout decimalValue decimalValue_natCast greatest positional shortest wire
  zeros)

variable {negative : Bool} {whole fraction ds : List Nat} {exponent : Option (Bool × List Nat)}
  {k : Numeral}

/-! ### Numerals as texts -/

def writtenFraction : List Nat → List Char
  | [] => []
  | d :: ds => '.' :: (d :: ds).map Nat.digitChar

def writtenExponent : Option (Bool × List Nat) → List Char
  | none => []
  | some (negative, ds) => 'e' :: (if negative then '-' else '+') :: ds.map Nat.digitChar

/-- A numeral without its sign. -/
def Numeral.written (k : Numeral) : List Char :=
  k.whole.map Nat.digitChar ++ (writtenFraction k.fraction ++ writtenExponent k.exponent)

/-- The digits of a numeral are digits, and stand where the reader wants some. -/
structure Numeral.Tidy (k : Numeral) : Prop where
  whole : ∃ d ds, k.whole = d :: ds ∧ (d = 0 → ds = [])
  digits : ∀ d ∈ k.whole ++ k.fraction, d < 10
  exponent : ∀ e ∈ k.exponent, e.2 ≠ [] ∧ ∀ d ∈ e.2, d < 10

theorem readExponent_written (h : ∀ e ∈ exponent, e.2 ≠ [] ∧ ∀ d ∈ e.2, d < 10) :
    readExponent ⟨negative, whole, fraction, none⟩ (Utf8.ofChars (writtenExponent exponent)) =
      (.number ⟨negative, whole, fraction, exponent⟩, []) := by
  cases exponent with
  | none => rfl
  | some e =>
    obtain ⟨minus, ds⟩ := e
    obtain ⟨hne, hlt⟩ := h _ rfl
    have hempty : ds.isEmpty = false := List.isEmpty_eq_false_iff.2 hne
    have hread := readDigits_digits hlt
    have htext : Utf8.ofChars (writtenExponent (some (minus, ds))) =
        0x65 :: (if minus then Byte.minus else Byte.plus) :: ds.map digitByte := by
      rw [writtenExponent, Utf8.ofChars_cons, Utf8.ofChars_cons, ofChars_digits hlt]
      cases minus <;> rfl
    rw [htext, readExponent]
    cases minus with
    | true => simp [hread, hempty]
    | false =>
      have hplus : Byte.plus ≠ Byte.minus := by decide
      simp [hread, hempty, hplus]

theorem stop_exponent : ∀ b ∈ (Utf8.ofChars (writtenExponent exponent)).head?,
    Byte.digit? b = none ∧ b ≠ Byte.point := by
  cases exponent with
  | none => nofun
  | some e =>
    rintro b ⟨⟩
    exact ⟨rfl, by decide⟩

/-- Neither a fraction nor an exponent begins with a digit. -/
theorem stop_written : ∀ b ∈ (Utf8.ofChars (writtenFraction fraction ++
    writtenExponent exponent)).head?, Byte.digit? b = none := by
  cases fraction with
  | nil => exact fun b hb => (stop_exponent b hb).1
  | cons d ds =>
    rintro b ⟨⟩
    rfl

theorem readFraction_of_ne {n : Numeral} {bs : Bytes} (h : ∀ b ∈ bs.head?, b ≠ Byte.point) :
    readFraction n bs = readExponent n bs := by
  cases bs with
  | nil => rfl
  | cons b bs => rw [readFraction, if_neg (h b rfl)]

theorem readFraction_written (hfraction : ∀ d ∈ fraction, d < 10)
    (h : ∀ e ∈ exponent, e.2 ≠ [] ∧ ∀ d ∈ e.2, d < 10) :
    readFraction ⟨negative, whole, [], none⟩
        (Utf8.ofChars (writtenFraction fraction ++ writtenExponent exponent)) =
      (.number ⟨negative, whole, fraction, exponent⟩, []) := by
  cases fraction with
  | nil =>
    change readFraction _ (Utf8.ofChars (writtenExponent exponent)) = _
    rw [readFraction_of_ne fun b hb => (stop_exponent b hb).2, readExponent_written h]
  | cons d ds =>
    have htext : Utf8.ofChars (writtenFraction (d :: ds) ++ writtenExponent exponent) =
        Byte.point :: ((d :: ds).map digitByte ++ Utf8.ofChars (writtenExponent exponent)) := by
      rw [writtenFraction, Utf8.ofChars_append, Utf8.ofChars_cons, ofChars_digits hfraction]
      rfl
    rw [htext, readFraction, if_pos rfl,
      readDigits_of_stop hfraction fun b hb => (stop_exponent b hb).1]
    exact readExponent_written h

/-- A numeral is read from its text. -/
theorem Numeral.Tidy.readNumber (h : k.Tidy) :
    readNumber k.negative (Utf8.ofChars k.written) = (.number k, []) := by
  obtain ⟨negative, whole, fraction, exponent⟩ := k
  obtain ⟨⟨d, ds, hwhole, hzero⟩, hdigits, hexponent⟩ := h
  obtain rfl : whole = d :: ds := hwhole
  obtain ⟨hds, hfraction⟩ := List.forall_mem_append.1 hdigits
  rw [written, Utf8.ofChars_append, ofChars_digits hds, Json.readNumber,
    readDigits_of_stop hds stop_written]
  dsimp only
  split
  · contradiction
  · rename_i heq
    obtain ⟨rfl, rfl⟩ := List.cons.inj heq
    cases hzero rfl
  · exact readFraction_written hfraction hexponent

/-! ### Layouts -/

theorem writtenFraction_of_ne_nil (h : ds ≠ []) :
    writtenFraction ds = '.' :: ds.map Nat.digitChar := by
  cases ds with
  | nil => contradiction
  | cons d ds => rfl

theorem ofDigits_append_zeros (ds : List Nat) (j : Nat) :
    Text.ofDigits 10 (ds ++ List.replicate j 0) = Text.ofDigits 10 ds * 10 ^ j := by
  induction j with
  | zero => simp
  | succ j ih =>
    rw [List.replicate_succ', ← List.append_assoc, ofDigits_append, ih, Nat.pow_succ, Nat.mul_assoc,
      Nat.add_zero]

theorem ofDigits_zeros_append (j : Nat) (ds : List Nat) :
    Text.ofDigits 10 (List.replicate j 0 ++ ds) = Text.ofDigits 10 ds := by
  induction j with
  | zero => rfl
  | succ j ih => exact ih

theorem ofDigits_lt (h : ∀ d ∈ ds, d < 10) : Text.ofDigits 10 ds < 10 ^ ds.length := by
  induction ds using List.reverseRecOn with
  | nil => decide
  | append_singleton ds d ih =>
    obtain ⟨hds, hd⟩ := List.forall_mem_append.1 h
    have hd := List.forall_mem_singleton.1 hd
    have hlt := ih hds
    rw [ofDigits_append, List.length_append, List.length_singleton, Nat.pow_succ]
    omega

/-- The numeral stands for a decimal, and is one that the reader takes. -/
structure Numeral.Stands (k : Numeral) (digits : Nat) (scale : Int) : Prop where
  tidy : k.Tidy
  few : Text.ofDigits 10 (k.whole ++ k.fraction) ≤ 10 ^ 17
  exponent : k.exponent? = none → k.exponent.any (·.1) = true
  value : ∀ e, k.exponent? = some e →
    decimalValue (Text.ofDigits 10 (k.whole ++ k.fraction)) (e - k.fraction.length) =
      decimalValue digits scale

theorem Numeral.Stands.exists_value {digits : Nat} {scale : Int} (h : k.Stands digits scale)
    (hvalue : decimalValue digits scale ≤ greatest) : ∃ m, k.value = .ok m :=
  Numeral.exists_value h.few h.exponent fun e he => (h.value e he).trans_le hvalue

section

variable {d : Nat} {scale : Int}

/-- A numeral without a power of ten. -/
theorem stands_of_plain {digits : Nat} (htidy : (Numeral.mk negative whole fraction none).Tidy)
    (hfew : Text.ofDigits 10 (whole ++ fraction) ≤ 10 ^ 17)
    (hvalue : decimalValue (Text.ofDigits 10 (whole ++ fraction)) (-fraction.length) =
      decimalValue digits scale) :
    (Numeral.mk negative whole fraction none).Stands digits scale where
  tidy := htidy
  few := hfew
  exponent := nofun
  value := by
    rintro e ⟨⟩
    rw [zero_sub]
    exact hvalue

theorem lt_of_mem_zeros {n e : Nat} (h : e ∈ List.replicate n 0) : e < 10 := by
  rw [List.eq_of_mem_replicate h]
  decide

/-- A point that stands between digits. -/
theorem exists_point_between {j : Nat} (negative : Bool) (hlt : ∀ e ∈ d :: ds, e < 10)
    (hzero : d = 0 → ds = []) (hfew : Text.ofDigits 10 (d :: ds) ≤ 10 ^ 17) (hj : 0 < j)
    (hinside : j < (d :: ds).length) :
    ∃ k : Numeral, k.negative = negative ∧ k.Stands (Text.ofDigits 10 (d :: ds)) (-j) ∧
      ((d :: ds).map Nat.digitChar).take ((d :: ds).length - j) ++
        '.' :: ((d :: ds).map Nat.digitChar).drop ((d :: ds).length - j) = k.written := by
  obtain ⟨n, hn⟩ : ∃ n, (d :: ds).length - j = n + 1 := ⟨(d :: ds).length - j - 1, by omega⟩
  rw [hn]
  have hparts : (d :: ds).take (n + 1) ++ (d :: ds).drop (n + 1) = d :: ds :=
    List.take_append_drop ..
  have hlength : ((d :: ds).drop (n + 1)).length = j := by
    rw [List.length_drop]
    omega
  have hne : (d :: ds).drop (n + 1) ≠ [] := by
    rw [← List.length_pos_iff, hlength]
    exact hj
  refine ⟨⟨negative, (d :: ds).take (n + 1), (d :: ds).drop (n + 1), none⟩, rfl, ?_, ?_⟩
  · refine stands_of_plain ⟨⟨d, ds.take n, rfl, fun hd => ?_⟩, ?_, nofun⟩ ?_ ?_
    · rw [hzero hd, List.take_nil]
    · rwa [hparts]
    · rwa [hparts]
    · rw [hparts, hlength]
  · simp only [Numeral.written, writtenFraction_of_ne_nil hne, writtenExponent, List.map_take,
      List.map_drop, List.append_nil]

/-- A point that stands before all digits, with zeros up to them. -/
theorem exists_point_before (negative : Bool) (hlt : ∀ e ∈ d :: ds, e < 10)
    (hfew : Text.ofDigits 10 (d :: ds) ≤ 10 ^ 17) (n : Nat) :
    ∃ k : Numeral, k.negative = negative ∧
      k.Stands (Text.ofDigits 10 (d :: ds)) (-((d :: ds).length + n : Nat)) ∧
      '0' :: '.' :: zeros n ++ (d :: ds).map Nat.digitChar = k.written := by
  have hdigits : Text.ofDigits 10 ([0] ++ (List.replicate n 0 ++ (d :: ds))) =
      Text.ofDigits 10 (d :: ds) := ofDigits_zeros_append (n + 1) (d :: ds)
  have hne : List.replicate n 0 ++ (d :: ds) ≠ [] := List.append_ne_nil_of_right_ne_nil _ nofun
  refine ⟨⟨negative, [0], List.replicate n 0 ++ (d :: ds), none⟩, rfl, ?_, ?_⟩
  · refine stands_of_plain ⟨⟨0, [], rfl, fun _ => rfl⟩, ?_, nofun⟩ (hdigits ▸ hfew) ?_
    · have hfraction : ∀ e ∈ List.replicate n 0 ++ (d :: ds), e < 10 :=
        List.forall_mem_append.2 ⟨fun _ => lt_of_mem_zeros, hlt⟩
      exact List.forall_mem_cons.2 ⟨by decide, hfraction⟩
    · rw [hdigits, List.length_append, List.length_replicate, Nat.add_comm n]
  · rw [Numeral.written, writtenFraction_of_ne_nil hne, writtenExponent, zeros, List.map_append,
      List.map_replicate, List.append_nil]
    rfl

/-- A point that stands after all digits and zeros, with one more zero after it. -/
theorem exists_point_after {j : Nat} (negative : Bool) (hlt : ∀ e ∈ d :: ds, e < 10)
    (hzero : d = 0 → ds = [] ∧ j = 0) (hfirst : j + ds.length ≤ 15) :
    ∃ k : Numeral, k.negative = negative ∧ k.Stands (Text.ofDigits 10 (d :: ds)) j ∧
      (d :: ds).map Nat.digitChar ++ zeros j ++ ['.', '0'] = k.written := by
  have hdigits : Text.ofDigits 10 ((d :: ds) ++ List.replicate j 0 ++ [0]) =
      Text.ofDigits 10 (d :: ds) * 10 ^ (j + 1) := by
    rw [ofDigits_append, ofDigits_append_zeros, Nat.pow_succ, Nat.mul_assoc, Nat.add_zero]
  have hpow : Text.ofDigits 10 (d :: ds) * 10 ^ (j + 1) ≤ 10 ^ 17 := by
    have hless := ofDigits_lt hlt
    calc Text.ofDigits 10 (d :: ds) * 10 ^ (j + 1) ≤ 10 ^ (ds.length + 1) * 10 ^ (j + 1) :=
          Nat.mul_le_mul_right _ hless.le
      _ = 10 ^ (ds.length + 1 + (j + 1)) := (Nat.pow_add ..).symm
      _ ≤ 10 ^ 17 := Nat.pow_le_pow_right (by decide) (by omega)
  refine ⟨⟨negative, (d :: ds) ++ List.replicate j 0, [0], none⟩, rfl, ?_, ?_⟩
  · refine stands_of_plain ⟨⟨d, ds ++ List.replicate j 0, rfl, fun hd => ?_⟩, ?_, nofun⟩
      (hdigits ▸ hpow) ?_
    · rw [(hzero hd).1, (hzero hd).2]
      rfl
    · exact List.forall_mem_append.2 ⟨List.forall_mem_append.2 ⟨hlt, fun _ => lt_of_mem_zeros⟩,
        List.forall_mem_singleton.2 (by decide)⟩
    · rw [hdigits, List.length_singleton, decimalValue_natCast, decimalValue, Nat.pow_succ,
        ← Nat.mul_assoc, Nat.cast_mul _ 10]
      norm_num [mul_assoc]
  · simp only [Numeral.written, writtenFraction, writtenExponent, zeros, List.map_append,
      List.map_replicate, List.append_nil]
    rfl

theorem exists_positional (negative : Bool) (hlt : ∀ e ∈ d :: ds, e < 10)
    (hzero : d = 0 → ds = [] ∧ scale = 0) (hfew : Text.ofDigits 10 (d :: ds) ≤ 10 ^ 17)
    (hfirst : scale + ds.length ≤ 15) :
    ∃ k : Numeral, k.negative = negative ∧ k.Stands (Text.ofDigits 10 (d :: ds)) scale ∧
      positional ((d :: ds).map Nat.digitChar) scale = k.written := by
  rw [positional]
  split
  case isTrue hscale =>
    obtain ⟨j, rfl⟩ := Int.eq_ofNat_of_zero_le hscale
    have hnone (hd : d = 0) : ds = [] ∧ j = 0 := (hzero hd).imp_right Int.ofNat_inj.1
    exact exists_point_after negative hlt hnone (by omega)
  case isFalse hscale =>
    obtain ⟨j, rfl⟩ := Binary64.exists_neg hscale
    have hj : (- -(j : Int)).toNat = j := by
      rw [Int.neg_neg, Int.toNat_natCast]
    rw [hj, List.length_map]
    dsimp only
    split
    case isTrue hinside =>
      exact exists_point_between negative hlt (fun hd => (hzero hd).1) hfew (by omega) hinside
    case isFalse houtside =>
      obtain ⟨n, rfl⟩ := Nat.exists_eq_add_of_le (Nat.not_lt.1 houtside)
      rw [Nat.add_sub_cancel_left]
      exact exists_point_before negative hlt hfew n

/-- The power of ten of the first digit cannot be too long to be read, unless it is negative. -/
theorem first_lt (hleast : 10 ^ ds.length ≤ Text.ofDigits 10 (d :: ds))
    (hvalue : decimalValue (Text.ofDigits 10 (d :: ds)) scale ≤ greatest) :
    scale + ds.length < 309 := by
  refine Int.not_le.1 fun hlarge => ?_
  have hpow : (10 : ℚ) ^ (309 : Int) ≤ 10 ^ (ds.length + scale : Int) :=
    zpow_le_zpow_right₀ (by norm_num) (by omega)
  have hle := (hpow.trans (Binary64.le_decimalValue hleast)).trans hvalue
  rw [zpow_ofNat] at hle
  exact absurd Binary64.greatest_lt (Nat.not_lt_of_le (by exact_mod_cast hle))

/-- The digits in front of an exponent, with a point after the first one. -/
def mantissa : List Char → List Char
  | [d] => [d]
  | d :: ds => d :: '.' :: ds
  | [] => []

theorem mantissa_digits (d : Nat) (ds : List Nat) :
    mantissa ((d :: ds).map Nat.digitChar) = d.digitChar :: writtenFraction ds := by
  cases ds <;> rfl

/-- Digits with the power of ten of the first one. -/
def scientific (text : List Char) (first : Int) : List Char :=
  mantissa text ++ 'e' :: (if first < 0 then ['-'] else ['+']) ++ Nat.toDigits 10 first.natAbs

theorem exists_scientific (negative : Bool) (hlt : ∀ e ∈ d :: ds, e < 10)
    (hfew : Text.ofDigits 10 (d :: ds) ≤ 10 ^ 17)
    (hleast : 10 ^ ds.length ≤ Text.ofDigits 10 (d :: ds))
    (hvalue : decimalValue (Text.ofDigits 10 (d :: ds)) scale ≤ greatest) :
    ∃ k : Numeral, k.negative = negative ∧ k.Stands (Text.ofDigits 10 (d :: ds)) scale ∧
      scientific ((d :: ds).map Nat.digitChar) (scale + ds.length) = k.written := by
  obtain ⟨e, es, hchars, hes, hexp, _⟩ := exists_digitChars (scale + ds.length).natAbs
  have hfirst := first_lt hleast hvalue
  refine ⟨⟨negative, [d], ds, some (scale + ds.length < 0, e :: es)⟩, rfl, ?_, ?_⟩
  · refine ⟨⟨⟨d, [], rfl, fun _ => rfl⟩, hlt, ?_⟩, hfew, ?_, ?_⟩
    · rintro _ ⟨⟩
      exact ⟨nofun, hes⟩
    · intro hnone
      rw [Numeral.exponent?] at hnone
      dsimp only at hnone
      rw [hexp] at hnone
      split at hnone
      · cases hnone
      · exact decide_eq_true (by omega)
    · intro x hx
      rw [Numeral.exponent?] at hx
      dsimp only at hx
      rw [hexp] at hx
      split at hx
      · have hscale : x - ds.length = scale := by
          have hx := Option.some.inj hx
          split at hx
          · have := of_decide_eq_true ‹_›
            omega
          · have : ¬ scale + ds.length < 0 := fun h => ‹¬ _› (decide_eq_true h)
            omega
        rw [hscale]
        rfl
      · cases hx
  · rw [scientific, mantissa_digits, hchars, Numeral.written, writtenExponent]
    by_cases hneg : scale + ds.length < 0 <;> simp [hneg]

/-! ### Numbers as texts -/

/-- Digits and a power of ten as they are printed. -/
def printed (digits : Nat) (scale : Int) : List Char :=
  let text := Nat.toDigits 10 digits
  let first := scale + text.length - 1
  if -5 ≤ first ∧ first ≤ 15 then positional text scale else scientific text first

theorem magnitude_eq (significand exponent : Nat) : wire.magnitude significand exponent =
    printed (shortest .toEven significand exponent).1 (shortest .toEven significand exponent).2 :=
  rfl

theorem exists_printed {digits : Nat} (negative : Bool) (hzero : digits = 0 → scale = 0)
    (hfew : digits ≤ 10 ^ 17) (hvalue : decimalValue digits scale ≤ greatest) :
    ∃ k : Numeral, k.negative = negative ∧ k.Stands digits scale ∧
      printed digits scale = k.written := by
  obtain ⟨hlength, hleast⟩ := Binary64.length_toDigits_bounds digits
  obtain ⟨d, ds, hchars, hlt, rfl, hlead⟩ := exists_digitChars digits
  have hfirst : scale + ((d :: ds).map Nat.digitChar).length - 1 = scale + ds.length := by
    rw [List.length_map, List.length_cons]
    omega
  rw [printed, hchars, hfirst]
  split
  case isTrue hplaces =>
    refine exists_positional negative hlt (fun hd => ⟨hlead hd, hzero ?_⟩) hfew hplaces.2
    rw [hd, hlead hd]
    rfl
  case isFalse hplaces =>
    refine exists_scientific negative hlt hfew ?_ hvalue
    rw [hchars, List.length_map, List.length_cons, Nat.add_sub_cancel] at hleast
    refine hleast (Nat.pos_of_ne_zero fun hdigits => hplaces ?_)
    -- zero is printed without a power of ten
    rw [hdigits] at hchars
    have hone : 1 = ((d :: ds).map Nat.digitChar).length := congrArg List.length hchars
    rw [List.length_map, List.length_cons] at hone
    rw [hzero hdigits]
    omega

end

/-- What is printed for a number without its sign is a numeral. -/
theorem exists_magnitude {significand exponent : Nat} (negative : Bool)
    (hc : Canonical significand exponent) :
    ∃ k : Numeral, k.negative = negative ∧ k.Tidy ∧ (∃ m, k.value = .ok m) ∧
      wire.magnitude significand exponent = k.written := by
  have hvalue := Binary64.shortest_value_le hc
  obtain ⟨hzero, hfew⟩ : ((shortest .toEven significand exponent).1 = 0 →
      (shortest .toEven significand exponent).2 = 0) ∧
      (shortest .toEven significand exponent).1 ≤ 10 ^ 17 := by
    by_cases hm : significand = 0
    · rw [shortest, if_pos hm]
      exact ⟨fun _ => rfl, Nat.zero_le _⟩
    · have hadmits : (Binary64.basin significand exponent).Admits
          (shortest .toEven significand exponent).1 (shortest .toEven significand exponent).2 :=
        Binary64.shortest_admits hm
      exact ⟨fun h => absurd h hadmits.ne_zero, hadmits.few⟩
  obtain ⟨k, hk, hstands, hchars⟩ := exists_printed negative hzero hfew hvalue
  exact ⟨k, hk, hstands.tidy, hstands.exists_value hvalue, (magnitude_eq ..).trans hchars⟩

theorem Numeral.Tidy.startsNumber (h : k.Tidy) :
    StartsNumber (Utf8.ofChars ((if k.negative then ['-'] else []) ++ k.written)) k [] := by
  have hread := h.readNumber
  cases hneg : k.negative with
  | true =>
    rw [hneg] at hread
    exact .minus hread
  | false =>
    rw [hneg] at hread
    obtain ⟨d, ds, hwhole, -⟩ := h.whole
    have hd : d < 10 := h.digits d (by rw [hwhole]; exact List.mem_cons_self)
    have htext : ∃ bs, Utf8.ofChars k.written = digitByte d :: bs := by
      rw [Numeral.written, hwhole, List.map_cons, List.cons_append, Utf8.ofChars_cons,
        utf8EncodeChar_digitChar d hd]
      exact ⟨_, rfl⟩
    obtain ⟨bs, hbs⟩ := htext
    change StartsNumber (Utf8.ofChars k.written) k []
    rw [hbs] at hread ⊢
    refine .digit ?_ hread
    rw [digit?_digitByte d hd]
    rfl

/-- A finite number is printed as a number, of which all is read. -/
theorem exists_startsNumber_float {x : Binary64} (h : x.isFinite = true) :
    ∃ (k : Numeral) (m : Number), k.value = .ok m ∧
      StartsNumber (Utf8.ofChars (wire.render x).toList) k [] := by
  cases x with
  | nan => cases h
  | infinite negative => cases h
  | finite negative significand exponent hc =>
    obtain ⟨k, rfl, htidy, ⟨m, hm⟩, hchars⟩ := exists_magnitude negative hc
    rw [Layout.render, String.toList_ofList, hchars]
    exact ⟨k, m, hm, htidy.startsNumber⟩

end CloudClient.Json
