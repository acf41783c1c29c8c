import CloudClient.Token.Basic

/-!
The line for the cache: those who wait in it, and at its head the one who has the cache and knows
what is in there.
-/

namespace CloudClient

structure Lined (line : List Nat) (cache : Option Token) (waiting : Nat → Prop)
    (held : Nat → Option (Option Token)) : Prop where
  nodup : line.Nodup
  mem_iff : ∀ i, i ∈ line ↔ held i ≠ none ∨ waiting i
  first : ∀ i, held i ≠ none → line.head? = some i
  known : ∀ i x, held i = some x → x = cache

namespace Lined

variable {line : List Nat} {cache cache' : Option Token} {waiting waiting' : Nat → Prop}
  {held held' : Nat → Option (Option Token)} {i : Nat}

theorem nil (cache : Option Token) (hw : ∀ i, ¬ waiting i) (hh : ∀ i, held i = none) :
    Lined [] cache waiting held where
  nodup := List.nodup_nil
  mem_iff i := by simp [hw i, hh i]
  first i hi := absurd (hh i) hi
  known i x hi := by simp [hh i] at hi

theorem holder_unique (h : Lined line cache waiting held) {j : Nat} (hi : held i ≠ none)
    (hj : held j ≠ none) : j = i := by
  have := h.first i hi
  rw [h.first j hj] at this
  exact Option.some.inj this

theorem none_held (h : Lined line cache waiting held) (hi : line.head? = some i)
    (hh : held i = none) (j : Nat) : held j = none := by
  cases hj : held j with
  | none => rfl
  | some x =>
    have := h.first j (by simp [hj])
    rw [hi] at this
    cases this
    rw [hh] at hj
    contradiction

/-- A task joins the line. -/
theorem join (h : Lined line cache waiting held) (hh : held i = none) (hw : ¬ waiting i)
    (hi : waiting' i) (ho : ∀ j, i ≠ j → (waiting' j ↔ waiting j)) :
    Lined (line ++ [i]) cache waiting' held where
  nodup := by
    have hout : i ∉ line := by simp [h.mem_iff, hh, hw]
    exact List.nodup_append.2 ⟨h.nodup, by simp, by
      rintro a ha b hb rfl
      exact hout (List.mem_singleton.1 hb ▸ ha)⟩
  mem_iff j := by
    by_cases hij : i = j
    · subst hij
      simp [hi]
    · simp [h.mem_iff, ho j hij, Ne.symm hij]
  first j hj := by simp [h.first j hj]
  known := h.known

/-- The first task takes the cache. -/
theorem take (h : Lined line cache waiting held) (hl : line.head? = some i) (hh : held i = none)
    (hi : held' i = some cache)
    (ho : ∀ j, i ≠ j → held' j = held j ∧ (waiting' j ↔ waiting j)) :
    Lined line cache waiting' held' where
  nodup := h.nodup
  mem_iff j := by
    by_cases hij : i = j
    · subst hij
      simp [hi, List.mem_of_head? hl]
    · rw [h.mem_iff, (ho j hij).1, (ho j hij).2]
  first j hj := by
    by_cases hij : i = j
    · exact hij ▸ hl
    · rw [(ho j hij).1, h.none_held hl hh j] at hj
      contradiction
  known j x hj := by
    by_cases hij : i = j
    · subst hij
      rw [hi] at hj
      exact (Option.some.inj hj).symm
    · rw [(ho j hij).1, h.none_held hl hh j] at hj
      contradiction

/-- A task leaves the line; only who has the cache may leave something else in it. -/
theorem leave (h : Lined line cache waiting held) (hc : held i = none → cache' = cache)
    (hi : held' i = none) (hw : ¬ waiting' i)
    (ho : ∀ j, i ≠ j → held' j = held j ∧ (waiting' j ↔ waiting j)) :
    Lined (line.erase i) cache' waiting' held' where
  nodup := h.nodup.erase i
  mem_iff j := by
    by_cases hij : i = j
    · subst hij
      simp [hi, hw, h.nodup.mem_erase_iff]
    · rw [h.nodup.mem_erase_iff, h.mem_iff, (ho j hij).1, (ho j hij).2]
      simp [Ne.symm hij]
  first j hj := by
    by_cases hij : i = j
    · subst hij
      exact absurd hi hj
    · rw [(ho j hij).1] at hj
      obtain ⟨rest, rfl⟩ : ∃ rest, line = j :: rest := by
        have := h.first j hj
        cases line with
        | nil => contradiction
        | cons a rest => exact ⟨rest, by rw [Option.some.inj this]⟩
      simp [Ne.symm hij]
  known j x hj := by
    by_cases hij : i = j
    · subst hij
      rw [hi] at hj
      contradiction
    · rw [(ho j hij).1] at hj
      rw [h.known j x hj]
      by_cases hh : held i = none
      · exact (hc hh).symm
      · exact absurd (h.holder_unique (by simp [hj]) hh) hij

theorem congr (h : Lined line cache waiting held) (hh : ∀ j, held' j = held j)
    (hw : ∀ j, waiting' j ↔ waiting j) : Lined line cache waiting' held' where
  nodup := h.nodup
  mem_iff j := by rw [h.mem_iff, hh, hw]
  first j hj := h.first j (hh j ▸ hj)
  known j x hj := h.known j x (hh j ▸ hj)

end Lined

end CloudClient
