import CloudClient.Text.Utf8

/-!
Text written as bytes is read back as it was. A character takes up to four bytes: the first tells
how many there are, and all others carry six bits each.
-/

namespace CloudClient.Utf8

variable {b : UInt8} {p : Partial} {rest : Bytes}

/-! ### One byte -/

/-- Bytes after the first one of a character. -/
def tail (n : Nat) : UInt8 :=
  UInt8.ofNat (n % 64 + 128)

theorem toNat_tail (n : Nat) : (tail n).toNat = n % 64 + 128 := by
  rw [tail, UInt8.toNat_ofNat']
  omega

theorem accepts_iff : p.accepts b = true ↔ p.low.toNat ≤ b.toNat ∧ b.toNat ≤ p.high.toNat := by
  simp [Partial.accepts, UInt8.le_iff_toNat_le]

/-- Where the second byte of three must lie. -/
theorem start_three : ∀ n < 16, start (.ofNat (n + 224)) =
    .lead ⟨n, 1, if n = 0 then 0xA0 else 0x80, if n = 13 then 0x9F else 0xBF⟩ := by
  decide

/-- Where the second byte of four must lie. -/
theorem start_four : ∀ n < 5, start (.ofNat (n + 240)) =
    .lead ⟨n, 2, if n = 0 then 0x90 else 0x80, if n = 4 then 0x8F else 0xBF⟩ := by
  decide

theorem start_two : ∀ n < 32, 2 ≤ n → start (.ofNat (n + 192)) = .lead ⟨n, 0, 0x80, 0xBF⟩ := by
  decide

theorem start_one {n : Nat} (h : n < 128) : start (.ofNat n) = .single (.ofNat n) := by
  have hn : (UInt8.ofNat n).toNat = n := by
    rw [UInt8.toNat_ofNat']
    omega
  rw [start, hn, if_pos h]

/-! ### Scanning -/

theorem scan_lead (h : start b = .lead p) : scan none (b :: rest) = scan (some p) rest := by
  rw [scan, h]

/-- The last byte of a character. -/
theorem scan_last {bits n : Nat} {low high : UInt8} (hlow : low.toNat ≤ n % 64 + 128)
    (hhigh : n % 64 + 128 ≤ high.toNat) :
    scan (some ⟨bits, 0, low, high⟩) (tail n :: rest) =
      some (.ofNat (bits * 64 + n % 64)) :: scan none rest := by
  have haccepts : (⟨bits, 0, low, high⟩ : Partial).accepts (tail n) = true := by
    rw [accepts_iff, toNat_tail]
    exact ⟨hlow, hhigh⟩
  have hbits : (n % 64 + 128) % 64 = n % 64 := by omega
  simp only [scan, haccepts, if_true, Partial.next, toNat_tail, hbits]

/-- A byte of a character that is not the first or the last one. -/
theorem scan_more {bits owed n : Nat} {low high : UInt8} (hlow : low.toNat ≤ n % 64 + 128)
    (hhigh : n % 64 + 128 ≤ high.toNat) :
    scan (some ⟨bits, owed + 1, low, high⟩) (tail n :: rest) =
      scan (some ⟨bits * 64 + n % 64, owed, 0x80, 0xBF⟩) rest := by
  have haccepts : (⟨bits, owed + 1, low, high⟩ : Partial).accepts (tail n) = true := by
    rw [accepts_iff, toNat_tail]
    exact ⟨hlow, hhigh⟩
  have hbits : (n % 64 + 128) % 64 = n % 64 := by omega
  simp only [scan, haccepts, if_true, Partial.next, toNat_tail, hbits]

/-! ### Characters of two, three and four bytes -/

theorem scan_two {n : Nat} (hlow : 128 ≤ n) (hhigh : n < 2048) :
    scan none (.ofNat (n / 64 % 32 + 192) :: tail n :: rest) =
      some (.ofNat n) :: scan none rest := by
  have hbits : n / 64 % 32 * 64 + n % 64 = n := by omega
  rw [scan_lead (start_two (n / 64 % 32) (by omega) (by omega)), scan_last (by simp)
    (by simp; omega), hbits]

theorem scan_three {n : Nat} (hlow : 2048 ≤ n) (hhigh : n < 65536)
    (hvalid : n < 55296 ∨ 57343 < n) :
    scan none (.ofNat (n / 4096 % 16 + 224) :: tail (n / 64) :: tail n :: rest) =
      some (.ofNat n) :: scan none rest := by
  have hbits : (n / 4096 % 16 * 64 + n / 64 % 64) * 64 + n % 64 = n := by omega
  rw [scan_lead (start_three (n / 4096 % 16) (by omega)), scan_more, scan_last (by simp)
    (by simp; omega), hbits]
  · split
    · simp only [UInt8.reduceToNat]
      omega
    · simp
  · split
    · simp only [UInt8.reduceToNat]
      omega
    · simp only [UInt8.reduceToNat]
      omega

theorem scan_four {n : Nat} (hlow : 65536 ≤ n) (hhigh : n < 1114112) :
    scan none
        (.ofNat (n / 262144 % 8 + 240) :: tail (n / 4096) :: tail (n / 64) :: tail n :: rest) =
      some (.ofNat n) :: scan none rest := by
  have hbits :
      ((n / 262144 % 8 * 64 + n / 4096 % 64) * 64 + n / 64 % 64) * 64 + n % 64 = n := by
    omega
  rw [scan_lead (start_four (n / 262144 % 8) (by omega)), scan_more, scan_more (by simp)
    (by simp; omega), scan_last (by simp) (by simp; omega), hbits]
  · split
    · simp only [UInt8.reduceToNat]
      omega
    · simp
  · split
    · simp only [UInt8.reduceToNat]
      omega
    · simp only [UInt8.reduceToNat]
      omega

theorem scan_utf8EncodeChar (c : Char) :
    scan none (String.utf8EncodeChar c ++ rest) = some c :: scan none rest := by
  have hvalid : c.val.toNat < 55296 ∨ 57343 < c.val.toNat ∧ c.val.toNat < 1114112 := c.valid
  have hchar : Char.ofNat c.val.toNat = c := Char.ofNat_toNat c
  rw [String.utf8EncodeChar]
  generalize c.val.toNat = n at hvalid hchar ⊢
  subst hchar
  split
  · rw [List.singleton_append, scan, start_one (by omega)]
  · split
    · exact scan_two (by omega) (by omega)
    · split
      · exact scan_three (by omega) (by omega) (by omega)
      · exact scan_four (by omega) (by omega)

theorem scan_encode (s : String) : scan none (encode s) = s.toList.map some := by
  rw [encode]
  induction s.toList with
  | nil => rfl
  | cons c cs ih => rw [List.flatMap_cons, scan_utf8EncodeChar, ih, List.map_cons]

theorem mapM_id_map_some {α : Type} (xs : List α) : (xs.map some).mapM id = some xs := by
  induction xs with
  | nil => rfl
  | cons x xs ih => simp [ih]

theorem decode?_encode (s : String) : decode? (encode s) = some s := by
  rw [decode?, scan_encode, mapM_id_map_some, Option.map_some, String.ofList_toList]

theorem decodeLossy_encode (s : String) : decodeLossy (encode s) = s := by
  rw [decodeLossy, scan_encode, List.map_map]
  exact (congrArg String.ofList (List.map_id _)).trans String.ofList_toList

end CloudClient.Utf8
