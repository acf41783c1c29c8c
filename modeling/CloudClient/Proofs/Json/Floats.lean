import CloudClient.Json.Codec
import CloudClient.Proofs.Json.Numerals

/-!
Numbers with a fraction that are read back. Not every number is: a reader that computes it from its
digits may miss it by a unit in the last place. Those that are read back on their own are read back
wherever they stand.
-/

namespace CloudClient

namespace Json

def float? : Json → Option Binary64
  | .number (.float x) => some x
  | _ => none

theorem float?_eq_some_iff {j : Json} {x : Binary64} : j.float? = some x ↔ j = .ofBinary64 x := by
  constructor
  · intro h
    unfold float? at h
    split at h
    · cases h
      rfl
    · cases h
  · rintro rfl
    rfl

end Json

/-- Whether the text of a number is read as that number. -/
def Binary64.Survives (x : Binary64) : Prop :=
  Json.anything.read (Json.anything.write (.ofBinary64 x)) = .ok (.ofBinary64 x)

theorem Binary64.survives_iff {x : Binary64} : x.Survives ↔
    (Json.anything.read (Json.anything.write (.ofBinary64 x))).toOption.bind Json.float? =
      some x := by
  rw [Survives]
  cases Json.anything.read (Json.anything.write (.ofBinary64 x)) with
  | error p => exact iff_of_false nofun nofun
  | ok j => exact ⟨fun h => Json.float?_eq_some_iff.2 (Except.ok.inj h),
      fun h => congrArg Except.ok (Json.float?_eq_some_iff.1 h)⟩

instance (x : Binary64) : Decidable x.Survives :=
  decidable_of_iff' _ Binary64.survives_iff

namespace Json

variable {bs rest after : Bytes} {k : Numeral}

/-! ### Numbers among values -/

/-- A number as it begins: with a sign or a digit. -/
inductive StartsNumber : Bytes → Numeral → Bytes → Prop where
  | minus {bs after : Bytes} {k : Numeral} :
      readNumber true bs = (.number k, after) → StartsNumber (Byte.minus :: bs) k after
  | digit {b : UInt8} {bs after : Bytes} {k : Numeral} : (Byte.digit? b).isSome = true →
      readNumber false (b :: bs) = (.number k, after) → StartsNumber (b :: bs) k after

theorem StartsNumber.append (h : StartsNumber bs k after) (hrest : Delimited rest) :
    StartsNumber (bs ++ rest) k (after ++ rest) := by
  cases h with
  | minus h => exact .minus (readNumber_append h hrest)
  | digit hb h => exact .digit hb (readNumber_append h hrest)

/-- Whether a value is a string or a number. -/
def Node.isTextOrNumber : Node → Bool
  | .text _ | .number _ => true
  | _ => false

theorem isTextOrNumber_readWord (w : Word) {node : Node} (hnode : node.isTextOrNumber = false)
    (expected : List UInt8) (bs : Bytes) :
    (readWord w node expected bs).1.isTextOrNumber = false := by
  induction expected generalizing bs with
  | nil => exact hnode
  | cons e expected ih =>
    cases bs with
    | nil => rfl
    | cons b bs =>
      rw [readWord]
      split
      · exact ih bs
      · rfl

/-- A value is a string or a number only where it begins like one. -/
theorem readValue_cases {b : UInt8} (hskip : skipBlanks bs = b :: rest) (fuel : Nat) :
    (b = Byte.quote ∧
      readValue (fuel + 1) bs = (.text (readLiteral rest).1, (readLiteral rest).2)) ∨
    (b = Byte.minus ∧ readValue (fuel + 1) bs = readNumber true rest) ∨
    ((Byte.digit? b).isSome = true ∧ readValue (fuel + 1) bs = readNumber false (b :: rest)) ∨
    (readValue (fuel + 1) bs).1.isTextOrNumber = false := by
  rw [readValue.eq_def]
  dsimp only
  rw [hskip]
  dsimp only
  split
  · exact .inl ⟨‹_›, rfl⟩
  split
  · split
    · exact .inr (.inr (.inr rfl))
    · split <;> exact .inr (.inr (.inr rfl))
  split
  · split
    · exact .inr (.inr (.inr rfl))
    · split
      · exact .inr (.inr (.inr rfl))
      · split <;> exact .inr (.inr (.inr rfl))
  split
  · exact .inr (.inr (.inr (isTextOrNumber_readWord .null rfl _ _)))
  split
  · exact .inr (.inr (.inr (isTextOrNumber_readWord .true rfl _ _)))
  split
  · exact .inr (.inr (.inr (isTextOrNumber_readWord .false rfl _ _)))
  split
  · exact .inr (.inl ⟨‹_›, rfl⟩)
  split
  · exact .inr (.inr (.inl ⟨‹_›, rfl⟩))
  · exact .inr (.inr (.inr rfl))

theorem digit?_isSome_iff {b : UInt8} :
    (Byte.digit? b).isSome = true ↔ 0x30 ≤ b ∧ b ≤ 0x39 := by
  rw [Byte.digit?]
  split
  · exact iff_of_true rfl ‹_›
  · exact iff_of_false nofun ‹_›

theorem skipBlanks_cons {b : UInt8} (hb : Byte.isBlank b = false) (bs : Bytes) :
    skipBlanks (b :: bs) = b :: bs :=
  List.dropWhile_cons_of_neg (by rw [hb]; decide)

/-- No other value begins with a digit. -/
theorem of_digit {b : UInt8} (hb : (Byte.digit? b).isSome = true) : Byte.isBlank b = false ∧
    ∀ c ∈ [Byte.quote, Byte.openBracket, Byte.openBrace, 0x6E, 0x74, 0x66, Byte.minus,
      Byte.closeBracket], b ≠ c := by
  obtain ⟨hlow, hhigh⟩ := digit?_isSome_iff.1 hb
  have hne (n : UInt8) (hn : n < 0x30 ∨ 0x39 < n) : b ≠ n := by
    rintro rfl
    rcases hn with hn | hn
    · exact absurd hlow (UInt8.not_le.2 hn)
    · exact absurd hhigh (UInt8.not_le.2 hn)
  refine ⟨?_, fun c hc => hne c ?_⟩
  · rw [Byte.isBlank, beq_false_of_ne (hne 0x20 (by decide)),
      beq_false_of_ne (hne 0x0A (by decide)), beq_false_of_ne (hne 0x09 (by decide)),
      beq_false_of_ne (hne 0x0D (by decide))]
    rfl
  · have hall : ∀ c ∈ [Byte.quote, Byte.openBracket, Byte.openBrace, 0x6E, 0x74, 0x66, Byte.minus,
        Byte.closeBracket], c < 0x30 ∨ 0x39 < c := by
      simp only [List.forall_mem_cons]
      exact ⟨by decide, by decide, by decide, by decide, by decide, by decide, by decide, by decide,
        nofun⟩
    exact hall c hc

theorem readValue_of_startsNumber (h : StartsNumber bs k after) (fuel : Nat) :
    readValue (fuel + 1) bs = (.number k, after) := by
  cases h with
  | minus h =>
    rw [readValue.eq_def]
    exact h
  | @digit b bs _ _ hb h =>
    obtain ⟨hblank, hne⟩ := of_digit hb
    rw [readValue.eq_def]
    dsimp only
    rw [skipBlanks_cons hblank]
    dsimp only
    rw [if_neg (hne _ (by decide)), if_neg (hne _ (by decide)), if_neg (hne _ (by decide)),
      if_neg (hne _ (by decide)), if_neg (hne _ (by decide)), if_neg (hne _ (by decide)),
      if_neg (hne _ (by decide)), if_pos hb]
    exact h

/-! ### Values of trees -/

section

variable {levels : Nat} {j : Json}

theorem exists_arr_of_value {items : List Node} {tail : ArrayEnd}
    (h : (Node.array items tail).value levels = .ok j) : ∃ js, j = .arr js := by
  cases levels with
  | zero =>
    rw [Node.value] at h
    cases h
  | succ levels =>
    rw [Node.value] at h
    cases hv : Node.values levels items <;> rw [hv] at h
    · cases h
    · cases ht : failIf tail.fault? <;> rw [ht] at h <;> cases h
      exact ⟨_, rfl⟩

theorem exists_obj_of_value {members : List (Literal × Node)} {tail : ObjectEnd}
    (h : (Node.object members tail).value levels = .ok j) : ∃ ms, j = .obj ms := by
  cases levels with
  | zero =>
    rw [Node.value] at h
    cases h
  | succ levels =>
    rw [Node.value] at h
    cases hv : Node.memberValues levels members <;> rw [hv] at h
    · cases h
    · cases ht : failIf tail.fault? <;> rw [ht] at h <;> cases h
      exact ⟨_, rfl⟩

/-- Values that are numbers. -/
theorem exists_of_value {n : Node} {m : Number} (h : n.value levels = .ok (.number m)) :
    ∃ k : Numeral, n = .number k ∧ k.value = .ok m := by
  cases n with
  | number k =>
    rw [Node.value] at h
    cases hk : k.value <;> rw [hk] at h <;> cases h
    exact ⟨k, rfl, hk⟩
  | text l =>
    rw [Node.value] at h
    cases hl : l.text <;> rw [hl] at h <;> cases h
  | array items tail =>
    obtain ⟨js, hj⟩ := exists_arr_of_value h
    cases hj
  | object members tail =>
    obtain ⟨ms, hj⟩ := exists_obj_of_value h
    cases hj
  | _ =>
    rw [Node.value] at h
    cases h

/-- Values that are strings. -/
theorem exists_text_of_value {n : Node} {s : String} (h : n.value levels = .ok (.str s)) :
    ∃ l : Literal, n = .text l ∧ l.text = .ok s := by
  cases n with
  | text l =>
    rw [Node.value] at h
    cases hl : l.text <;> rw [hl] at h <;> cases h
    exact ⟨l, rfl, hl⟩
  | number k =>
    rw [Node.value] at h
    cases hk : k.value <;> rw [hk] at h <;> cases h
  | array items tail =>
    obtain ⟨js, hj⟩ := exists_arr_of_value h
    cases hj
  | object members tail =>
    obtain ⟨ms, hj⟩ := exists_obj_of_value h
    cases hj
  | _ =>
    rw [Node.value] at h
    cases h

end

theorem Codec.read_eq_ok_iff {α : Type} {c : Codec α} {bs : Bytes} {a : α} : c.read bs = .ok a ↔
    c.decode levelLimit (Json.read bs).1 = .ok a ∧ (Json.read bs).2 = false := by
  rw [Codec.read]
  dsimp only
  cases c.decode levelLimit (Json.read bs).1 with
  | error p => exact iff_of_false nofun nofun
  | ok a' =>
    cases (Json.read bs).2 with
    | true => exact iff_of_false nofun nofun
    | false => exact ⟨fun h => ⟨h, rfl⟩, And.left⟩

end Json

end CloudClient
