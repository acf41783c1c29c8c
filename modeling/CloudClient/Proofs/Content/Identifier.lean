import CloudClient.Content
import CloudClient.Proofs.Json.Restores
import CloudClient.Proofs.Text.Trim

/-!
Identifiers in plain text. A server sends one as it is or as a JSON string, with blanks around it,
and either way the identifier is what is read: only what begins with a quote is ever taken for a
string, and a string is read back as it was written.
-/

namespace CloudClient

namespace Json

/-! ### Only strings begin with a quote -/

def Node.isText : Node → Bool
  | .text _ => true
  | _ => false

theorem isText_readExponent (n : Numeral) (bs : Bytes) : (readExponent n bs).1.isText = false := by
  cases bs with
  | nil => rfl
  | cons b rest =>
    rw [readExponent.eq_def]
    dsimp only
    split
    · -- whatever sign and digits follow the letter
      repeat' split
      all_goals rfl
    · rfl

theorem isText_readFraction (n : Numeral) (bs : Bytes) : (readFraction n bs).1.isText = false := by
  cases bs with
  | nil => rfl
  | cons b rest =>
    rw [readFraction.eq_def]
    dsimp only
    split
    · split
      · rfl
      · exact isText_readExponent _ _
    · exact isText_readExponent _ _

theorem isText_readNumber (negative : Bool) (bs : Bytes) :
    (readNumber negative bs).1.isText = false := by
  rw [readNumber.eq_def]
  dsimp only
  split
  · rfl
  · rfl
  · exact isText_readFraction _ _

theorem exists_quote_of_readValue {fuel : Nat} {bs : Bytes}
    (h : (readValue fuel bs).1.isText = true) : ∃ rest, skipBlanks bs = Byte.quote :: rest := by
  cases fuel with
  | zero => cases h
  | succ fuel =>
    cases hskip : skipBlanks bs with
    | nil =>
      rw [readValue.eq_def] at h
      dsimp only at h
      rw [hskip] at h
      cases h
    | cons b rest =>
      rcases readValue_cases hskip fuel with ⟨rfl, _⟩ | ⟨_, hread⟩ | ⟨_, hread⟩ | hother
      · exact ⟨rest, rfl⟩
      · rw [hread, isText_readNumber] at h
        cases h
      · rw [hread, isText_readNumber] at h
        cases h
      · cases hnode : (readValue (fuel + 1) bs).1 with
        | text l =>
          rw [hnode] at hother
          cases hother
        | _ =>
          rw [hnode] at h
          cases h

/-- What is read as a string is one. -/
theorem exists_quote_of_read {bs : Bytes} {s : String} (h : string.read bs = .ok s) :
    ∃ rest, skipBlanks bs = Byte.quote :: rest := by
  obtain ⟨hdecode, _⟩ := Codec.read_eq_ok_iff.1 h
  have htext : (readValue (2 * bs.length + 2) bs).1.isText = true := by
    rw [Json.read] at hdecode
    cases hnode : (readValue (2 * bs.length + 2) bs).1 with
    | text l => rfl
    | _ =>
      rw [hnode] at hdecode
      cases hdecode
  exact exists_quote_of_readValue htext

/-! ### Where the first character shows in the first byte -/

theorem utf8EncodeChar_ne_nil (c : Char) : String.utf8EncodeChar c ≠ [] := by
  rw [String.utf8EncodeChar]
  repeat' split
  all_goals exact List.cons_ne_nil _ _

/-- A byte below 0x80 at the start of a text is its first character. -/
theorem head?_of_encode {s : String} {b : UInt8} {rest : Bytes} (h : Utf8.encode s = b :: rest)
    (hb : b < 0x80) : s.toList.head? = some (Char.ofNat b.toNat) := by
  rw [Utf8.encode] at h
  cases hs : s.toList with
  | nil =>
    rw [hs] at h
    cases h
  | cons c cs =>
    rw [hs, List.flatMap_cons] at h
    by_cases hc : c.toNat < 0x80
    · rw [utf8EncodeChar_of_lt hc] at h
      obtain rfl : UInt8.ofNat c.toNat = b := (List.cons.inj h).1
      rw [List.head?_cons, UInt8.toNat_ofNat', Nat.mod_eq_of_lt (Nat.lt_trans hc (by decide)),
        Char.ofNat_toNat]
    · have hmem : b ∈ String.utf8EncodeChar c := by
        cases hbytes : String.utf8EncodeChar c with
        | nil => exact absurd hbytes (utf8EncodeChar_ne_nil c)
        | cons b' bs =>
          rw [hbytes] at h
          rw [← (List.cons.inj h).1]
          exact List.mem_cons_self
      exact absurd hb (UInt8.not_lt.2 (le_of_mem_utf8EncodeChar (Nat.le_of_not_lt hc) hmem))

/-- The blanks between JSON tokens are white space. -/
theorem isBlank_ofNat {b : UInt8} (h : Byte.isBlank b = true) :
    b < 0x80 ∧ Text.isBlank (Char.ofNat b.toNat) = true := by
  simp only [Byte.isBlank, Bool.or_eq_true, beq_iff_eq] at h
  rcases h with ((rfl | rfl) | rfl) | rfl <;> decide

theorem skipBlanks_encode {s : String} (h : ∀ c ∈ s.toList.head?, Text.isBlank c = false) :
    skipBlanks (Utf8.encode s) = Utf8.encode s := by
  cases hs : Utf8.encode s with
  | nil => rfl
  | cons b rest =>
    refine List.dropWhile_cons_of_neg fun hblank => ?_
    obtain ⟨hb, hchar⟩ := isBlank_ofNat hblank
    rw [h _ (head?_of_encode hs hb)] at hchar
    cases hchar

/-- A text that begins with neither a blank nor a quote is no string. -/
theorem read_bare {s t : String} (hblank : ∀ c ∈ s.toList.head?, Text.isBlank c = false)
    (hquote : s.toList.head? ≠ some '"') : string.read (Utf8.encode s) ≠ .ok t := by
  intro h
  obtain ⟨rest, hrest⟩ := exists_quote_of_read h
  rw [skipBlanks_encode hblank] at hrest
  exact hquote (head?_of_encode hrest (by decide))

theorem trimmed_quoted (s : String) : Text.Trimmed (quoted s) where
  first := by
    rintro c ⟨⟩
    rfl
  last := by
    rw [quoted, List.getLast?_concat]
    rintro c ⟨⟩
    rfl

end Json

open Content

/-- An identifier is read whether it was sent as a string, whatever it is made of, or as it is. -/
theorem textOf_between_blanks (s before after : String)
    (hbefore : ∀ c ∈ before.toList, Text.isBlank c = true)
    (hafter : ∀ c ∈ after.toList, Text.isBlank c = true) :
    textOf (Utf8.encode (before ++ (Json.str s).render ++ after)) = s ∧
      (Text.Trimmed s.toList → s.toList.head? ≠ some '"' →
        textOf (Utf8.encode (before ++ s ++ after)) = s) := by
  constructor
  · have hquoted : Text.Trimmed (Json.str s).render.toList := by
      rw [Json.render, String.toList_ofList]
      exact Json.trimmed_quoted s
    have hrestores : Json.string.Restores Json.levelLimit s := Json.string_restores s
    have hread : Json.string.read (Utf8.encode (Json.str s).render) = .ok s :=
      hrestores.reads.read hrestores.fits
    rw [textOf, Utf8.decodeLossy_encode, Text.trim_between hbefore hafter hquoted, hread]
  · intro htrimmed hquote
    rw [textOf, Utf8.decodeLossy_encode, Text.trim_between hbefore hafter htrimmed]
    cases hread : Json.string.read (Utf8.encode s) with
    | ok t => exact absurd hread (Json.read_bare htrimmed.first hquote)
    | error _ => rfl

/-- A string with blanks and escapes in it keeps them, and a bare text may have quotes inside. -/
theorem textOf_string_and_bare :
    textOf (Utf8.encode ("\u3000\n" ++ (Json.str " a\"b\\\x07\n ").render ++ "\r\n")) =
        " a\"b\\\x07\n " ∧
      textOf (Utf8.encode ("\u00a0" ++ "a\" \"b" ++ "\n")) = "a\" \"b" :=
  ⟨(textOf_between_blanks " a\"b\\\x07\n " "\u3000\n" "\r\n" (List.all_eq_true.1 rfl)
      (List.all_eq_true.1 rfl)).1,
    (textOf_between_blanks "a\" \"b" "\u00a0" "\n" (List.all_eq_true.1 rfl)
      (List.all_eq_true.1 rfl)).2 (by decide) (by decide)⟩

end CloudClient
