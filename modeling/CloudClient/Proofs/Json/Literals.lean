import CloudClient.Json.Printer
import CloudClient.Json.Reader
import CloudClient.Proofs.Json.Denotes

/-!
Strings that are read back. Every character is written in one of four ways: as itself, by a short
escape, or by its number if it is a control character without one; and each of them is read as the
bytes of the character.
-/

namespace CloudClient

/-- Characters as bytes. -/
def Utf8.ofChars (cs : List Char) : Bytes :=
  cs.flatMap String.utf8EncodeChar

@[simp] theorem Utf8.ofChars_nil : ofChars [] = [] := rfl

@[simp] theorem Utf8.ofChars_cons (c : Char) (cs : List Char) :
    ofChars (c :: cs) = String.utf8EncodeChar c ++ ofChars cs := rfl

@[simp] theorem Utf8.ofChars_append (cs ds : List Char) :
    ofChars (cs ++ ds) = ofChars cs ++ ofChars ds :=
  List.flatMap_append

theorem Utf8.encode_ofList (cs : List Char) : encode (String.ofList cs) = ofChars cs := by
  rw [encode, String.toList_ofList, ofChars]

namespace Json

/-- Bytes that stand for themselves in a string. -/
def Byte.isPlain (b : UInt8) : Prop :=
  0x20 ≤ b ∧ b ≠ Byte.quote ∧ b ≠ Byte.backslash

/-! ### Characters as bytes -/

theorem utf8EncodeChar_of_lt {c : Char} (h : c.toNat < 0x80) :
    String.utf8EncodeChar c = [UInt8.ofNat c.toNat] := by
  have hv : c.val.toNat ≤ 0x7f := Nat.le_of_lt_succ h
  rw [String.utf8EncodeChar]
  simp only [hv, if_true]
  rfl

theorem isPlain_of_le {b : UInt8} (h : 0x80 ≤ b) : Byte.isPlain b := by
  refine ⟨UInt8.le_trans (by decide) h, ?_, ?_⟩
  · rintro rfl
    exact absurd h (by decide)
  · rintro rfl
    exact absurd h (by decide)

/-- A character of several bytes has none below 0x80. -/
theorem le_of_mem_utf8EncodeChar {c : Char} (h : 0x80 ≤ c.toNat) {b : UInt8}
    (hb : b ∈ String.utf8EncodeChar c) : 0x80 ≤ b := by
  have hfirst : ¬ c.val.toNat ≤ 0x7f := Nat.not_le_of_lt h
  rw [String.utf8EncodeChar] at hb
  simp only [hfirst, if_false] at hb
  rw [UInt8.le_iff_toNat_le]
  generalize c.val.toNat = n at hb
  split at hb
  · simp only [List.mem_cons, List.not_mem_nil, or_false] at hb
    rcases hb with rfl | rfl <;> simp [UInt8.toNat_ofNat'] <;> omega
  · split at hb
    · simp only [List.mem_cons, List.not_mem_nil, or_false] at hb
      rcases hb with rfl | rfl | rfl <;> simp [UInt8.toNat_ofNat'] <;> omega
    · simp only [List.mem_cons, List.not_mem_nil, or_false] at hb
      rcases hb with rfl | rfl | rfl | rfl <;> simp [UInt8.toNat_ofNat'] <;> omega

/-- The bytes of a character that is no control character and has no escape. -/
theorem isPlain_utf8EncodeChar {c : Char} (h : 0x20 ≤ c.toNat) (hquote : c ≠ '"')
    (hbackslash : c ≠ '\\') : ∀ b ∈ String.utf8EncodeChar c, Byte.isPlain b := by
  intro b hb
  by_cases hascii : c.toNat < 0x80
  · rw [utf8EncodeChar_of_lt hascii, List.mem_singleton] at hb
    have hb' : b.toNat = c.toNat := by
      rw [hb, UInt8.toNat_ofNat']
      omega
    refine ⟨by rw [UInt8.le_iff_toNat_le, hb']; exact h, ?_, ?_⟩
    · rintro rfl
      exact hquote (Char.toNat_inj.1 hb'.symm)
    · rintro rfl
      exact hbackslash (Char.toNat_inj.1 hb'.symm)
  · exact isPlain_of_le (le_of_mem_utf8EncodeChar (Nat.le_of_not_lt hascii) hb)

/-! ### Literals -/

/-- What has been read of a literal, with more of it in front. -/
def Literal.pushes (ps : List Piece) (r : Literal × Bytes) : Literal × Bytes :=
  (⟨ps ++ r.1.pieces, r.1.cut⟩, r.2)

theorem readLiteral_plain {bs : Bytes} (h : ∀ b ∈ bs, Byte.isPlain b) (more : Bytes) :
    readLiteral (bs ++ more) = Literal.pushes (bs.map .byte) (readLiteral more) := by
  induction bs with
  | nil => rfl
  | cons b bs ih =>
    obtain ⟨⟨hcontrol, hquote, hbackslash⟩, hrest⟩ := List.forall_mem_cons.1 h
    rw [List.cons_append, readLiteral.eq_def]
    dsimp only
    rw [if_neg hquote, if_neg hbackslash, if_neg (UInt8.not_lt.2 hcontrol), ih hrest]
    rfl

theorem readLiteral_escape {e b : UInt8} (h : Byte.unescape? e = some b) (more : Bytes) :
    readLiteral (Byte.backslash :: e :: more) = Literal.pushes [.byte b] (readLiteral more) := by
  have he : e ≠ 0x75 := by
    rintro rfl
    contradiction
  rw [readLiteral.eq_def]
  dsimp only
  rw [if_neg (by decide), if_pos rfl, if_neg he, h]
  rfl

theorem readLiteral_unit {h₁ h₂ h₃ h₄ : UInt8} {u : Nat} (h : hexUnit? h₁ h₂ h₃ h₄ = some u)
    (more : Bytes) : readLiteral (Byte.backslash :: 0x75 :: h₁ :: h₂ :: h₃ :: h₄ :: more) =
      Literal.pushes [.unit u] (readLiteral more) := by
  rw [readLiteral.eq_def]
  dsimp only
  rw [if_neg (by decide), if_pos rfl, if_pos rfl, h]
  rfl

/-- The parts of a literal that stand for a character. -/
def Literal.Writes (ps : List Piece) (c : Char) : Prop :=
  ∀ more bytes, Literal.bytes more none = .ok bytes →
    Literal.bytes (ps ++ more) none = .ok (String.utf8EncodeChar c ++ bytes)

theorem Literal.writes_bytes (c : Char) :
    Literal.Writes ((String.utf8EncodeChar c).map .byte) c := by
  intro more bytes h
  induction String.utf8EncodeChar c with
  | nil => exact h
  | cons b bs ih =>
    change (Literal.bytes (bs.map .byte ++ more) none).bind _ = _
    rw [ih]
    rfl

theorem Literal.writes_unit {c : Char} (h : c.toNat < 0xD800) :
    Literal.Writes [.unit c.toNat] c := by
  intro more bytes hmore
  have htrailing : isTrailing c.toNat = false := by
    simp [isTrailing]
    omega
  have hleading : isLeading c.toNat = false := by
    simp [isLeading]
    omega
  rw [List.singleton_append, Literal.bytes.eq_def]
  dsimp only
  rw [htrailing, hleading, hmore, Char.ofNat_toNat]
  rfl

/-- A control character without a short escape is written in four digits. -/
theorem exists_hexUnit? : ∀ n < 0x20, ∃ h₁ h₂ h₃ h₄,
    Utf8.ofChars (hex4 n) = [h₁, h₂, h₃, h₄] ∧ hexUnit? h₁ h₂ h₃ h₄ = some n := by
  intro n hn
  have hall : ∀ n < 0x20, (Utf8.ofChars (hex4 n)).length = 4 ∧
      hexUnit? ((Utf8.ofChars (hex4 n)).getD 0 0) ((Utf8.ofChars (hex4 n)).getD 1 0)
        ((Utf8.ofChars (hex4 n)).getD 2 0) ((Utf8.ofChars (hex4 n)).getD 3 0) = some n := by
    decide
  obtain ⟨hlength, hunit⟩ := hall n hn
  match Utf8.ofChars (hex4 n), hlength, hunit with
  | [h₁, h₂, h₃, h₄], _, hunit => exact ⟨h₁, h₂, h₃, h₄, rfl, hunit⟩

/-- Every character is written so that it is read as itself. -/
theorem exists_readLiteral_escapeChar (c : Char) : ∃ ps, Literal.Writes ps c ∧
    ∀ more, readLiteral (Utf8.ofChars (escapeChar c) ++ more) =
      Literal.pushes ps (readLiteral more) := by
  have hshort {e b : UInt8} {cs : List Char} (he : Byte.unescape? e = some b)
      (hc : String.utf8EncodeChar c = [b]) (hs : Utf8.ofChars cs = [Byte.backslash, e]) :
      ∃ ps, Literal.Writes ps c ∧ ∀ more, readLiteral (Utf8.ofChars cs ++ more) =
        Literal.pushes ps (readLiteral more) := by
    refine ⟨[.byte b], ?_, fun more => ?_⟩
    · have hwrites := Literal.writes_bytes c
      rwa [hc] at hwrites
    · rw [hs]
      exact readLiteral_escape he more
  unfold escapeChar
  split
  · exact hshort (e := 0x22) rfl rfl rfl
  · exact hshort (e := 0x5C) rfl rfl rfl
  · exact hshort (e := 0x6E) rfl rfl rfl
  · exact hshort (e := 0x72) rfl rfl rfl
  · exact hshort (e := 0x74) rfl rfl rfl
  · rename_i hquote hbackslash _ _ _
    by_cases hb : c.toNat = 8
    · obtain rfl : c = '\x08' := Char.toNat_inj.1 hb
      exact hshort (e := 0x62) rfl rfl rfl
    · by_cases hf : c.toNat = 12
      · obtain rfl : c = '\x0c' := Char.toNat_inj.1 hf
        exact hshort (e := 0x66) rfl rfl rfl
      · rw [if_neg hb, if_neg hf]
        by_cases hcontrol : c.toNat < 0x20
        · obtain ⟨h₁, h₂, h₃, h₄, hhex, hunit⟩ := exists_hexUnit? c.toNat hcontrol
          refine ⟨_, Literal.writes_unit (by omega), fun more => ?_⟩
          rw [if_pos hcontrol, Utf8.ofChars_cons, Utf8.ofChars_cons, hhex]
          exact readLiteral_unit hunit more
        · refine ⟨_, Literal.writes_bytes c, fun more => ?_⟩
          rw [if_neg hcontrol, Utf8.ofChars_cons, Utf8.ofChars_nil, List.append_nil]
          exact readLiteral_plain
            (isPlain_utf8EncodeChar (Nat.le_of_not_lt hcontrol) hquote hbackslash) more

/-- A text that is written as a string is read as it was. -/
theorem readLiteral_quoted (s : String) (more : Bytes) :
    ∃ l, readLiteral (Utf8.ofChars (s.toList.flatMap escapeChar) ++ Byte.quote :: more) =
      (l, more) ∧ l.Denotes s := by
  have hchars (cs : List Char) : ∃ l,
      readLiteral (Utf8.ofChars (cs.flatMap escapeChar) ++ Byte.quote :: more) = (l, more) ∧
        l.cut = none ∧ Literal.bytes l.pieces none = .ok (Utf8.ofChars cs) := by
    induction cs with
    | nil => exact ⟨⟨[], none⟩, by rw [List.flatMap_nil, Utf8.ofChars_nil, readLiteral.eq_def]; rfl,
        rfl, rfl⟩
    | cons c cs ih =>
      obtain ⟨l, hread, hcut, hbytes⟩ := ih
      obtain ⟨ps, hwrites, hps⟩ := exists_readLiteral_escapeChar c
      refine ⟨⟨ps ++ l.pieces, l.cut⟩, ?_, hcut, hwrites _ _ hbytes⟩
      rw [List.flatMap_cons, Utf8.ofChars_append, List.append_assoc, hps, hread]
      rfl
  obtain ⟨l, hread, hcut, hbytes⟩ := hchars s.toList
  exact ⟨l, hread, hcut, hbytes⟩

end Json

end CloudClient
