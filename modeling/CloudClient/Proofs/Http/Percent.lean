import CloudClient.Http.Percent
import CloudClient.Proofs.Text.Utf8

/-!
A text written as a path segment is read back as it was, and no sign in it has a meaning in a path
or ends one.
-/

namespace CloudClient.Percent

variable {plus : Bool} {rest : List Char}

/-- What holds of the first 256 numbers holds of all bytes. -/
theorem forall_byte {P : UInt8 → Prop} (h : ∀ n < 256, P (.ofNat n)) (b : UInt8) : P b := by
  have hb := h b.toNat b.toNat_lt
  rwa [UInt8.ofNat_toNat] at hb

theorem hexValue?_hexDigit : ∀ n < 16, hexValue? (hexDigit n) = some n := by
  decide

theorem decodeChars_escape (b : UInt8) :
    decodeChars plus (escape b ++ rest) = b :: decodeChars plus rest := by
  have hb := b.toNat_lt
  have hhigh := hexValue?_hexDigit (b.toNat / 16) (by omega)
  have hlow := hexValue?_hexDigit (b.toNat % 16) (by omega)
  have hsum : b.toNat / 16 * 16 + b.toNat % 16 = b.toNat := by omega
  change decodeChars plus ('%' :: hexDigit (b.toNat / 16) :: hexDigit (b.toNat % 16) :: rest) = _
  simp only [decodeChars, hhigh, hlow, hsum, UInt8.ofNat_toNat]

theorem decodeChars_cons {c : Char} (h : c ≠ '%') :
    decodeChars plus (c :: rest) =
      (if plus && c == '+' then [0x20] else String.utf8EncodeChar c) ++ decodeChars plus rest := by
  rw [decodeChars]
  rintro _ _ _ rfl
  contradiction

/-- Signs that end a part of a URL. -/
def signs : List Char :=
  ['/', '?', '#', '&', '=']

/-- A byte that is kept is a character of its own, and none with a meaning. -/
theorem kept_byte (b : UInt8) : (isUnreserved b || isFormSafe b) = true →
    Char.ofNat b.toNat ∉ '%' :: '+' :: signs ∧ String.utf8EncodeChar (.ofNat b.toNat) = [b] := by
  revert b
  exact forall_byte (by decide +kernel)

/-- A plus sign is not kept, so none stands for a space. -/
theorem decodeChars_kept {b : UInt8} (hb : (isUnreserved b || isFormSafe b) = true) :
    decodeChars plus (Char.ofNat b.toNat :: rest) = b :: decodeChars plus rest := by
  obtain ⟨hmark, hchar⟩ := kept_byte b hb
  obtain ⟨hpercent, hrest⟩ := List.ne_and_not_mem_of_not_mem_cons hmark
  rw [decodeChars_cons hpercent, beq_false_of_ne (List.ne_of_not_mem_cons hrest), Bool.and_false,
    hchar]
  rfl

theorem decodeChars_segmentByte (plus : Bool) (b : UInt8) (rest : List Char) :
    decodeChars plus (segmentByte b ++ rest) = b :: decodeChars plus rest := by
  rw [segmentByte]
  split
  case isTrue hb => exact decodeChars_kept (by rw [hb, Bool.true_or])
  case isFalse => exact decodeChars_escape b

theorem decodeChars_formByte (b : UInt8) (rest : List Char) :
    decodeChars true (formByte b ++ rest) = b :: decodeChars true rest := by
  rw [formByte]
  split
  case isTrue hb => exact decodeChars_kept (by rw [hb, Bool.or_true])
  case isFalse =>
    split
    case isTrue hspace =>
      rw [hspace, List.singleton_append, decodeChars_cons (by decide)]
      rfl
    case isFalse => exact decodeChars_escape b

/-- Bytes that are read back one by one are read back in a row. -/
theorem decodeChars_flatMap {write : UInt8 → List Char}
    (h : ∀ b rest, decodeChars plus (write b ++ rest) = b :: decodeChars plus rest)
    (bytes : Bytes) : decodeChars plus (bytes.flatMap write) = bytes := by
  induction bytes with
  | nil => rfl
  | cons b bytes ih => rw [List.flatMap_cons, h, ih]

theorem decodeSegment?_segmentChars (s : String) : decodeSegment? (segmentChars s) = some s := by
  rw [decodeSegment?, segmentChars, decodeChars_flatMap (decodeChars_segmentByte false),
    Utf8.decode?_encode]

theorem decodeForm?_segmentChars (s : String) : decodeForm? (segmentChars s) = some s := by
  rw [decodeForm?, segmentChars, decodeChars_flatMap (decodeChars_segmentByte true),
    Utf8.decode?_encode]

theorem decodeForm?_formChars (s : String) : decodeForm? (formChars s) = some s := by
  rw [decodeForm?, formChars, decodeChars_flatMap decodeChars_formByte, Utf8.decode?_encode]

theorem segmentChars_injective {s t : String} (h : segmentChars s = segmentChars t) : s = t := by
  have hread : decodeSegment? (segmentChars s) = decodeSegment? (segmentChars t) := by rw [h]
  rw [decodeSegment?_segmentChars, decodeSegment?_segmentChars] at hread
  exact Option.some.inj hread

/-! ### Signs with a meaning -/

theorem hexDigit_not_sign : ∀ n < 16, hexDigit n ∉ signs := by
  decide

variable {c : Char}

theorem not_mem_kept {b : UInt8} (hb : (isUnreserved b || isFormSafe b) = true) (hc : c ∈ signs) :
    c ∉ [Char.ofNat b.toNat] := by
  intro h
  rw [List.mem_singleton.1 h] at hc
  exact (kept_byte b hb).1 (.tail _ (.tail _ hc))

theorem not_mem_escape (b : UInt8) (hc : c ∈ signs) : c ∉ escape b := by
  have hb := b.toNat_lt
  rw [escape, List.mem_cons, List.mem_cons, List.mem_singleton]
  rintro (rfl | rfl | rfl)
  · exact absurd hc (by decide)
  · exact hexDigit_not_sign _ (by omega) hc
  · exact hexDigit_not_sign _ (by omega) hc

theorem not_mem_segmentByte (b : UInt8) (hc : c ∈ signs) : c ∉ segmentByte b := by
  rw [segmentByte]
  split
  case isTrue hb => exact not_mem_kept (by rw [hb, Bool.true_or]) hc
  case isFalse => exact not_mem_escape b hc

theorem not_mem_formByte (b : UInt8) (hc : c ∈ signs) : c ∉ formByte b := by
  rw [formByte]
  split
  case isTrue hb => exact not_mem_kept (by rw [hb, Bool.or_true]) hc
  case isFalse =>
    split
    case isTrue =>
      intro h
      rw [List.mem_singleton.1 h] at hc
      exact absurd hc (by decide)
    case isFalse => exact not_mem_escape b hc

theorem not_mem_segmentChars (s : String) (hc : c ∈ signs) : c ∉ segmentChars s := by
  intro h
  obtain ⟨b, _, hb⟩ := List.mem_flatMap.1 h
  exact not_mem_segmentByte b hc hb

theorem not_mem_formChars (s : String) (hc : c ∈ signs) : c ∉ formChars s := by
  intro h
  obtain ⟨b, _, hb⟩ := List.mem_flatMap.1 h
  exact not_mem_formByte b hc hb

theorem slash_not_mem_segmentChars (s : String) : '/' ∉ segmentChars s :=
  not_mem_segmentChars s (by decide)

theorem query_not_mem_segmentChars (s : String) : '?' ∉ segmentChars s :=
  not_mem_segmentChars s (by decide)

end CloudClient.Percent
