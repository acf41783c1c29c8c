import CloudClient.Proofs.Text.Trim
import CloudClient.Text.Unsigned

/-!
Texts that write whole numbers: decimal digits between blanks, perhaps with a plus sign in front.
They are just the texts that a number is read from.
-/

namespace CloudClient.Text

/-- One decimal digit or more, and the number they denote. -/
structure Denotes (digits : List Char) (n : Nat) : Prop where
  nonempty : digits ≠ []
  decimal : ∀ c ∈ digits, c.isDigit = true
  value : Nat.ofDigitChars 10 digits 0 = n

/-- A text that writes a number. -/
def Writes (text : String) (n : Nat) : Prop :=
  ∃ before sign digits after : List Char, text.toList = before ++ (sign ++ digits) ++ after ∧
    (∀ c ∈ before, isBlank c = true) ∧ (∀ c ∈ after, isBlank c = true) ∧
    (sign = [] ∨ sign = ['+']) ∧ Denotes digits n

variable {c : Char} {cs : List Char} {n bound : Nat}

theorem digitValue?_eq_some_iff {d : Nat} :
    digitValue? c = some d ↔ c.isDigit = true ∧ c.toNat - '0'.toNat = d := by
  have hdigit : c.isDigit = true ↔ '0' ≤ c ∧ c ≤ '9' := by
    simp only [Char.isDigit, Bool.and_eq_true, decide_eq_true_eq, Char.le_def]
  rw [digitValue?, hdigit]
  split
  case isTrue h => simp [h]
  case isFalse h => simp [h]

theorem mapM_digitValue?_eq_some_iff {ds : List Nat} :
    cs.mapM digitValue? = some ds ↔
      (∀ c ∈ cs, c.isDigit = true) ∧ (cs.map fun c => c.toNat - '0'.toNat) = ds := by
  induction cs generalizing ds with
  | nil => simp
  | cons c cs ih =>
    simp only [List.mapM_cons, Option.bind_eq_bind, Option.bind_eq_some_iff,
      digitValue?_eq_some_iff, ih, List.forall_mem_cons, List.map_cons]
    constructor
    · rintro ⟨d, ⟨hc, rfl⟩, ds, ⟨hcs, rfl⟩, ⟨⟩⟩
      exact ⟨⟨hc, hcs⟩, rfl⟩
    · rintro ⟨⟨hc, hcs⟩, rfl⟩
      exact ⟨_, ⟨hc, rfl⟩, _, ⟨hcs, rfl⟩, rfl⟩

theorem digits?_eq_some_iff : digits? cs = some n ↔ Denotes cs n := by
  have hvalue : ofDigits 10 (cs.map fun c => c.toNat - '0'.toNat) = Nat.ofDigitChars 10 cs 0 := by
    rw [ofDigits, List.foldl_map, Nat.ofDigitChars_eq_foldl]
    exact congrArg (fun f => List.foldl f 0 cs) (funext fun n => funext fun c => by
      rw [Nat.mul_comm])
  rw [digits?]
  split
  case isTrue hempty =>
    refine ⟨nofun, fun h => absurd (List.isEmpty_iff.1 hempty) h.nonempty⟩
  case isFalse hempty =>
    rw [Option.map_eq_some_iff]
    constructor
    · rintro ⟨ds, hds, hn⟩
      obtain ⟨hdecimal, rfl⟩ := mapM_digitValue?_eq_some_iff.1 hds
      exact ⟨fun h => hempty (List.isEmpty_iff.2 h), hdecimal, hvalue.symm.trans hn⟩
    · intro h
      exact ⟨_, mapM_digitValue?_eq_some_iff.2 ⟨h.decimal, rfl⟩, hvalue.trans h.value⟩

/-- A plus sign is no digit, so no more than one is read. -/
theorem unsigned?_eq_some_iff {s : String} : unsigned? bound s = some n ↔
    (∃ sign digits, s.toList = sign ++ digits ∧ (sign = [] ∨ sign = ['+']) ∧ Denotes digits n) ∧
      n < bound := by
  rw [unsigned?, Option.filter_eq_some_iff, decide_eq_true_eq]
  refine and_congr_left fun _ => ?_
  split
  case h_1 rest hs =>
    rw [digits?_eq_some_iff]
    constructor
    · exact fun h => ⟨['+'], rest, hs, .inr rfl, h⟩
    · rintro ⟨sign, digits, hparts, rfl | rfl, h⟩
      · rw [hs, List.nil_append] at hparts
        exact absurd (h.decimal '+' (hparts ▸ List.mem_cons_self)) (by decide)
      · rw [hs, List.singleton_append] at hparts
        rwa [List.tail_eq_of_cons_eq hparts]
  case h_2 hother =>
    rw [digits?_eq_some_iff]
    constructor
    · exact fun h => ⟨[], s.toList, rfl, .inl rfl, h⟩
    · rintro ⟨sign, digits, hparts, rfl | rfl, h⟩
      · rwa [hparts]
      · exact absurd hparts (hother digits)

theorem unsigned?_of_digits? {s : String} (h : digits? s.toList = some n) (hn : n < bound) :
    unsigned? bound s = some n :=
  unsigned?_eq_some_iff.2 ⟨⟨[], s.toList, rfl, .inl rfl, digits?_eq_some_iff.1 h⟩, hn⟩

theorem isBlank_of_isDigit (h : c.isDigit = true) : isBlank c = false := by
  simp only [Char.isDigit, Bool.and_eq_true, decide_eq_true_eq, ge_iff_le,
    UInt32.le_iff_toNat_le] at h
  have hrange : 48 ≤ c.toNat ∧ c.toNat ≤ 57 := h
  simp only [isBlank, Bool.or_eq_false_iff, Bool.and_eq_false_iff, decide_eq_false_iff_not,
    beq_eq_false_iff_ne]
  omega

/-- Digits after a sign have no blanks around them. -/
theorem Denotes.trimmed {sign digits : List Char} (h : Denotes digits n)
    (hsign : sign = [] ∨ sign = ['+']) : Trimmed (sign ++ digits) where
  first := by
    obtain ⟨d, ds, hds⟩ := List.exists_cons_of_ne_nil h.nonempty
    intro c hc
    rcases hsign with rfl | rfl
    · rw [hds] at hc
      cases hc
      exact isBlank_of_isDigit (h.decimal _ (hds ▸ List.mem_cons_self))
    · cases hc
      rfl
  last := by
    intro c hc
    rw [List.getLast?_append, List.getLast?_eq_some_getLast h.nonempty, Option.some_or] at hc
    cases hc
    exact isBlank_of_isDigit (h.decimal _ (List.getLast_mem h.nonempty))

/-- What is read between blanks is what is written there, as long as it is below the bound. -/
theorem unsigned?_trim_eq_some_iff {text : String} :
    unsigned? bound (trim text) = some n ↔ Writes text n ∧ n < bound := by
  rw [unsigned?_eq_some_iff]
  refine and_congr_left fun _ => ?_
  constructor
  · rintro ⟨sign, digits, hparts, hsign, hdigits⟩
    obtain ⟨before, after, htext, hbefore, hafter⟩ := exists_trim text
    exact ⟨before, sign, digits, after, hparts ▸ htext, hbefore, hafter, hsign, hdigits⟩
  · rintro ⟨before, sign, digits, after, htext, hbefore, hafter, hsign, hdigits⟩
    refine ⟨sign, digits, ?_, hsign, hdigits⟩
    rw [trim, String.toList_ofList, htext, trimList_between hbefore hafter (hdigits.trimmed hsign)]

end CloudClient.Text
