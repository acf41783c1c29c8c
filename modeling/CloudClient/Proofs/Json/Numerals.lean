import CloudClient.Proofs.Json.Literals

/-!
Numbers that are read back. A number ends where something follows that cannot be part of it, and so
it is read in the same way in front of a comma or a bracket as on its own; and the digits of an
integer are read as that integer.
-/

namespace CloudClient.Json

/-- What may follow a value in a printed text. -/
inductive Delimited : Bytes → Prop where
  | ends : Delimited []
  | more {b : UInt8} (rest : Bytes) :
      b = Byte.comma ∨ b = Byte.closeBracket ∨ b = Byte.closeBrace → Delimited (b :: rest)

variable {bs rest after : Bytes} {k n : Numeral} {negative : Bool}

/-! ### Numbers in front of more text -/

theorem readDigits_append (bs : Bytes) (hrest : Delimited rest) :
    readDigits (bs ++ rest) = ((readDigits bs).1, (readDigits bs).2 ++ rest) := by
  induction bs with
  | nil =>
    cases hrest with
    | ends => rfl
    | more rest hb => rcases hb with rfl | rfl | rfl <;> rfl
  | cons b bs ih =>
    obtain ⟨hdigits, hafter⟩ := Prod.mk.inj ih
    simp only [readDigits, List.cons_append, List.takeWhile_cons, List.dropWhile_cons]
    split
    · rw [List.filterMap_cons, List.filterMap_cons, hdigits, hafter]
      rfl
    · rfl

/-- Digits that have to be there, with what is done with them. -/
theorem digits_append {f : List Nat → Bytes → Node × Bytes} {more : Bytes}
    (hf : ∀ ds tail, f ds tail = (.number k, after) →
      f ds (tail ++ more) = (.number k, after ++ more))
    (hmore : Delimited more)
    (h : (if (readDigits bs).1.isEmpty then cutNumber bs
      else f (readDigits bs).1 (readDigits bs).2) = (.number k, after)) :
    (if (readDigits (bs ++ more)).1.isEmpty then cutNumber (bs ++ more)
      else f (readDigits (bs ++ more)).1 (readDigits (bs ++ more)).2) =
      (.number k, after ++ more) := by
  rw [readDigits_append bs hmore]
  by_cases hd : (readDigits bs).1.isEmpty = true
  · rw [if_pos hd, cutNumber] at h
    cases h
  · rw [if_neg hd] at h ⊢
    exact hf _ _ h

theorem readExponent_append (h : readExponent n bs = (.number k, after)) (hrest : Delimited rest) :
    readExponent n (bs ++ rest) = (.number k, after ++ rest) := by
  have htail (negative : Bool) (ds : List Nat) (tail : Bytes)
      (h : (Node.number { n with exponent := some (negative, ds) }, tail) = (.number k, after)) :
      (Node.number { n with exponent := some (negative, ds) }, tail ++ rest) =
        (.number k, after ++ rest) := by
    cases h
    rfl
  cases bs with
  | nil =>
    cases h
    cases hrest with
    | ends => rfl
    | more rest hb => rcases hb with rfl | rfl | rfl <;> rfl
  | cons b bs =>
    rw [List.cons_append]
    unfold readExponent at h ⊢
    dsimp only at h ⊢
    by_cases he : b = 0x65 ∨ b = 0x45
    · rw [if_pos he] at h ⊢
      -- an exponent begins with a sign, or at once with its digits
      cases bs with
      | nil => cases h
      | cons s t =>
        rw [List.cons_append]
        dsimp only at h ⊢
        by_cases hminus : s = Byte.minus
        · simp only [if_pos hminus] at h ⊢
          exact digits_append (htail true) hrest h
        · by_cases hplus : s = Byte.plus
          · simp only [if_neg hminus, if_pos hplus] at h ⊢
            exact digits_append (htail false) hrest h
          · simp only [if_neg hminus, if_neg hplus] at h ⊢
            rw [← List.cons_append]
            exact digits_append (htail false) hrest h
    · rw [if_neg he] at h ⊢
      cases h
      rfl

theorem readFraction_append (h : readFraction n bs = (.number k, after)) (hrest : Delimited rest) :
    readFraction n (bs ++ rest) = (.number k, after ++ rest) := by
  cases bs with
  | nil =>
    cases h
    cases hrest with
    | ends => rfl
    | more rest hb => rcases hb with rfl | rfl | rfl <;> rfl
  | cons b bs =>
    rw [List.cons_append]
    unfold readFraction at h ⊢
    dsimp only at h ⊢
    by_cases hpoint : b = Byte.point
    · rw [if_pos hpoint] at h ⊢
      exact digits_append (f := fun ds => readExponent { n with fraction := ds })
        (fun _ _ h => readExponent_append h hrest) hrest h
    · rw [if_neg hpoint] at h ⊢
      rw [← List.cons_append]
      exact readExponent_append h hrest

/-- A number ends where it ends on its own. -/
theorem readNumber_append (h : readNumber negative bs = (.number k, after))
    (hrest : Delimited rest) : readNumber negative (bs ++ rest) = (.number k, after ++ rest) := by
  unfold readNumber at h ⊢
  rw [readDigits_append bs hrest]
  dsimp only at h ⊢
  split at h
  · cases h
  · cases h
  · exact readFraction_append h hrest

/-! ### Integers -/

/-- A digit as a byte. -/
def digitByte (d : Nat) : UInt8 :=
  .ofNat (d + 0x30)

theorem digit?_digitByte : ∀ d < 10, Byte.digit? (digitByte d) = some d := by
  decide

theorem utf8EncodeChar_digitChar : ∀ d < 10,
    String.utf8EncodeChar d.digitChar = [digitByte d] := by
  decide

theorem ofDigits_append (ds : List Nat) (d : Nat) :
    Text.ofDigits 10 (ds ++ [d]) = Text.ofDigits 10 ds * 10 + d :=
  List.foldl_append

/-- A number is written in digits of which the first one is not zero, unless it is the only one. -/
theorem exists_digitChars (n : Nat) : ∃ d ds,
    Nat.toDigits 10 n = (d :: ds).map Nat.digitChar ∧ (∀ e ∈ d :: ds, e < 10) ∧
      Text.ofDigits 10 (d :: ds) = n ∧ (d = 0 → ds = []) := by
  induction n using Nat.strongRecOn with
  | ind n ih =>
    by_cases hn : n < 10
    · refine ⟨n, [], ?_, List.forall_mem_singleton.2 hn, ?_, fun _ => rfl⟩
      · rw [Nat.toDigits_of_lt_base hn]
        rfl
      · exact Nat.zero_add n
    · obtain ⟨d, ds, hchars, hlt, hval, hzero⟩ := ih (n / 10) (by omega)
      have hlast : n % 10 < 10 := Nat.mod_lt _ (by decide)
      refine ⟨d, ds ++ [n % 10], ?_, ?_, ?_, ?_⟩
      · rw [Nat.toDigits_of_base_le (by decide) (by omega), hchars, ← List.cons_append,
          List.map_append]
        rfl
      · rw [← List.cons_append]
        exact List.forall_mem_append.2 ⟨hlt, List.forall_mem_singleton.2 hlast⟩
      · rw [← List.cons_append, ofDigits_append, hval]
        omega
      · -- a number that begins with a zero is less than ten
        rintro rfl
        rw [hzero rfl] at hval
        have : n / 10 = 0 := hval.symm
        omega

theorem ofChars_digits {ds : List Nat} (h : ∀ d ∈ ds, d < 10) :
    Utf8.ofChars (ds.map Nat.digitChar) = ds.map digitByte := by
  induction ds with
  | nil => rfl
  | cons d ds ih =>
    obtain ⟨hd, hrest⟩ := List.forall_mem_cons.1 h
    rw [List.map_cons, Utf8.ofChars_cons, utf8EncodeChar_digitChar d hd, ih hrest]
    rfl

theorem exists_digits (n : Nat) : ∃ d ds,
    Utf8.ofChars (Nat.toDigits 10 n) = (d :: ds).map digitByte ∧ (∀ e ∈ d :: ds, e < 10) ∧
      Text.ofDigits 10 (d :: ds) = n ∧ (d = 0 → ds = []) := by
  obtain ⟨d, ds, hchars, hlt, hrest⟩ := exists_digitChars n
  exact ⟨d, ds, hchars ▸ ofChars_digits hlt, hlt, hrest⟩

/-- Digits end where something else stands. -/
theorem readDigits_of_stop {ds : List Nat} (h : ∀ d ∈ ds, d < 10)
    (hrest : ∀ b ∈ rest.head?, Byte.digit? b = none) :
    readDigits (ds.map digitByte ++ rest) = (ds, rest) := by
  induction ds with
  | nil =>
    cases rest with
    | nil => rfl
    | cons b rest =>
      have hb : Byte.digit? b = none := hrest b rfl
      simp [readDigits, hb]
  | cons d ds ih =>
    obtain ⟨hd, hds⟩ := List.forall_mem_cons.1 h
    obtain ⟨hdigits, hafter⟩ := Prod.mk.inj (ih hds)
    simp only [readDigits, List.map_cons, List.cons_append, List.takeWhile_cons,
      List.dropWhile_cons, digit?_digitByte d hd, Option.isSome_some, if_true,
      List.filterMap_cons, hdigits, hafter]

theorem readDigits_digits {ds : List Nat} (h : ∀ d ∈ ds, d < 10) :
    readDigits (ds.map digitByte) = (ds, []) := by
  have hread : readDigits (ds.map digitByte ++ []) = (ds, []) := readDigits_of_stop h nofun
  rwa [List.append_nil] at hread

theorem le_foldl (significand : Nat) (ds : List Nat) :
    significand ≤ ds.foldl (fun n d => n * 10 + d) significand := by
  induction ds generalizing significand with
  | nil => exact Nat.le_refl _
  | cons d ds ih => exact Nat.le_trans (by omega) (ih (significand * 10 + d))

/-- All digits of a number that fits are taken up. -/
theorem takeUp_of_lt {significand : Nat} {ds : List Nat}
    (h : ds.foldl (fun n d => n * 10 + d) significand < 2 ^ 64) :
    takeUp significand ds = (ds.foldl (fun n d => n * 10 + d) significand, 0) := by
  induction ds generalizing significand with
  | nil => rfl
  | cons d ds ih =>
    rw [List.foldl_cons] at h ⊢
    rw [takeUp, if_pos (Nat.lt_of_le_of_lt (le_foldl _ ds) h), ih h]

theorem readNumber_digits {d : Nat} {ds : List Nat} (hlt : ∀ e ∈ d :: ds, e < 10)
    (hzero : d = 0 → ds = []) (negative : Bool) :
    readNumber negative ((d :: ds).map digitByte) =
      (.number ⟨negative, d :: ds, [], none⟩, []) := by
  rw [readNumber, readDigits_digits hlt]
  dsimp only
  split
  · contradiction
  · rename_i heq
    obtain ⟨rfl, rfl⟩ := List.cons.inj heq
    cases hzero rfl
  · rfl

/-- An integer is read as itself. -/
theorem exists_readNumber (i : Integer) : ∃ k : Numeral, k.value = .ok (.int i) ∧
    readNumber (i.val < 0) (Utf8.ofChars (Nat.toDigits 10 i.val.natAbs)) = (.number k, []) := by
  obtain ⟨i, hlow, hhigh⟩ := i
  obtain ⟨d, ds, hchars, hlt, hval, hzero⟩ := exists_digits i.natAbs
  refine ⟨⟨i < 0, d :: ds, [], none⟩, ?_, ?_⟩
  · have htake : takeUp 0 (d :: ds) = (i.natAbs, 0) := by
      have hfold : (d :: ds).foldl (fun n d => n * 10 + d) 0 = i.natAbs := hval
      rw [takeUp_of_lt, hfold]
      omega
    have hint : (if decide (i < 0) = true then -(i.natAbs : Int) else (i.natAbs : Int)) = i := by
      split
      · have := of_decide_eq_true ‹_›
        omega
      · have : ¬ i < 0 := fun h => ‹¬ _› (decide_eq_true h)
        omega
    have hsigned : (decide (i < 0) && i.natAbs == 0) = false := by
      by_cases h : i < 0
      · have : i.natAbs ≠ 0 := by omega
        simp [this]
      · simp [h]
    simp only [Numeral.value, htake, hint, Integer.ofInt?, hlow, hhigh, and_self, dite_true,
      hsigned]
    rfl
  · rw [hchars]
    exact readNumber_digits hlt hzero _

end CloudClient.Json
