import CloudClient.Json.Codec
import CloudClient.Proofs.Text.Utf8

/-!
Trees that stand for values. What is read of a complete text is a tree without gaps, and whoever
walks it finds the value that the text was written from: all of it where it is read in full, and
nothing wrong where it is passed over.
-/

namespace CloudClient.Json

/-- A literal with an end, which stands for a text. -/
structure Literal.Denotes (l : Literal) (s : String) : Prop where
  whole : l.cut = none
  bytes : Literal.bytes l.pieces none = .ok (Utf8.encode s)

mutual

/-- The tree stands for the value. -/
def Node.Denotes : Node → Json → Prop
  | n, .null => n = .null
  | n, .bool b => n = .bool b
  | n, .number m => ∃ k : Numeral, n = .number k ∧ k.value = .ok m
  | n, .str s => ∃ l : Literal, n = .text l ∧ l.Denotes s
  | n, .arr items => ∃ ns, n = .array ns .closed ∧ Node.ItemsDenote ns items
  | n, .obj members => ∃ ns, n = .object ns .closed ∧ Node.MembersDenote ns members

def Node.ItemsDenote : List Node → List Json → Prop
  | ns, [] => ns = []
  | ns, j :: rest => ∃ n ns', ns = n :: ns' ∧ n.Denotes j ∧ Node.ItemsDenote ns' rest

def Node.MembersDenote : List (Literal × Node) → List (String × Json) → Prop
  | ns, [] => ns = []
  | ns, (k, j) :: rest =>
    ∃ l n ns', ns = (l, n) :: ns' ∧ l.Denotes k ∧ n.Denotes j ∧ Node.MembersDenote ns' rest

end

namespace Literal.Denotes

variable {l : Literal} {s : String}

theorem text (h : l.Denotes s) : l.text = .ok s := by
  obtain ⟨pieces, cut⟩ := l
  obtain ⟨hcut, hbytes⟩ := h
  obtain rfl : cut = none := hcut
  change ((Literal.bytes pieces none).bind _) = _
  rw [show Literal.bytes pieces none = .ok (Utf8.encode s) from hbytes, Except.bind]
  rw [Utf8.decode?_encode]
  rfl

theorem skip (h : l.Denotes s) : l.skip = none := by
  rw [Literal.skip, h.whole]
  rfl

end Literal.Denotes

namespace Node

/-- A value is followed by more of the text. -/
theorem Denotes.isCut {n : Node} {j : Json} (h : n.Denotes j) : n.isCut = false := by
  cases j with
  | null =>
    obtain rfl : n = .null := h
    rfl
  | bool b =>
    obtain rfl : n = .bool b := h
    rfl
  | number m =>
    obtain ⟨k, rfl, _⟩ := h
    rfl
  | str s =>
    obtain ⟨l, rfl, hl⟩ := h
    exact congrArg Option.isSome hl.whole
  | arr items =>
    obtain ⟨ns, rfl, _⟩ := h
    rfl
  | obj members =>
    obtain ⟨ns, rfl, _⟩ := h
    rfl

theorem Denotes.eq_null {j : Json} (h : Node.null.Denotes j) : j = .null := by
  cases j with
  | null => rfl
  | bool b => cases h
  | number m =>
    obtain ⟨_, hk, _⟩ := h
    cases hk
  | str s =>
    obtain ⟨_, hl, _⟩ := h
    cases hl
  | arr items =>
    obtain ⟨_, hns, _⟩ := h
    cases hns
  | obj members =>
    obtain ⟨_, hns, _⟩ := h
    cases hns

/-! ### Trees in full -/

mutual

theorem Denotes.value {n : Node} : (j : Json) → n.Denotes j → {levels : Nat} →
    j.depth ≤ levels → n.value levels = .ok j
  | .null, h, _, _ => by
    obtain rfl : n = .null := h
    rw [Node.value]
  | .bool b, h, _, _ => by
    obtain rfl : n = .bool b := h
    rw [Node.value]
  | .number m, h, _, _ => by
    obtain ⟨k, rfl, hk⟩ := h
    rw [Node.value, hk]
    rfl
  | .str s, h, _, _ => by
    obtain ⟨l, rfl, hl⟩ := h
    rw [Node.value, hl.text]
    rfl
  | .arr items, h, levels, hd => by
    obtain ⟨ns, rfl, hns⟩ := h
    cases levels with
    | zero => exact absurd hd (Nat.not_succ_le_zero _)
    | succ levels =>
      rw [Node.value, ItemsDenote.values items hns (Nat.le_of_succ_le_succ hd)]
      rfl
  | .obj members, h, levels, hd => by
    obtain ⟨ns, rfl, hns⟩ := h
    cases levels with
    | zero => exact absurd hd (Nat.not_succ_le_zero _)
    | succ levels =>
      rw [Node.value, MembersDenote.values members hns (Nat.le_of_succ_le_succ hd)]
      rfl

theorem ItemsDenote.values {ns : List Node} : (items : List Json) → ItemsDenote ns items →
    {levels : Nat} → depthItems items ≤ levels → Node.values levels ns = .ok items
  | [], h, _, _ => by
    obtain rfl : ns = [] := h
    rw [Node.values]
  | j :: rest, h, levels, hd => by
    obtain ⟨n, ns', rfl, hn, hrest⟩ := h
    rw [Node.values, Denotes.value j hn (Nat.le_trans (Nat.le_max_left ..) hd),
      ItemsDenote.values rest hrest (Nat.le_trans (Nat.le_max_right ..) hd)]
    rfl

theorem MembersDenote.values {ns : List (Literal × Node)} : (members : List (String × Json)) →
    MembersDenote ns members → {levels : Nat} → depthMembers members ≤ levels →
    Node.memberValues levels ns = .ok members
  | [], h, _, _ => by
    obtain rfl : ns = [] := h
    rw [Node.memberValues]
  | (k, j) :: rest, h, levels, hd => by
    obtain ⟨l, n, ns', rfl, hl, hn, hrest⟩ := h
    rw [Node.memberValues, hl.text, Denotes.value j hn (Nat.le_trans (Nat.le_max_left ..) hd),
      MembersDenote.values rest hrest (Nat.le_trans (Nat.le_max_right ..) hd)]
    rfl

end

/-! ### Trees that are passed over -/

mutual

theorem Denotes.skip {n : Node} : (j : Json) → n.Denotes j → n.skip = none
  | .null, h => by
    obtain rfl : n = .null := h
    rw [Node.skip]
    all_goals nofun
  | .bool b, h => by
    obtain rfl : n = .bool b := h
    rw [Node.skip]
    all_goals nofun
  | .number m, h => by
    obtain ⟨k, rfl, _⟩ := h
    rw [Node.skip]
    all_goals nofun
  | .str s, h => by
    obtain ⟨l, rfl, hl⟩ := h
    rw [Node.skip, hl.skip]
  | .arr items, h => by
    obtain ⟨ns, rfl, hns⟩ := h
    rw [Node.skip, ItemsDenote.skip items hns]
  | .obj members, h => by
    obtain ⟨ns, rfl, hns⟩ := h
    rw [Node.skip, MembersDenote.skip members hns]

theorem ItemsDenote.skip {ns : List Node} : (items : List Json) → ItemsDenote ns items →
    Node.skipItems ns .closed = none
  | [], h => by
    obtain rfl : ns = [] := h
    rfl
  | j :: rest, h => by
    obtain ⟨n, ns', rfl, hn, hrest⟩ := h
    rw [Node.skipItems, Denotes.skip j hn, ItemsDenote.skip rest hrest]
    rfl

theorem MembersDenote.skip {ns : List (Literal × Node)} : (members : List (String × Json)) →
    MembersDenote ns members → Node.skipMembers ns .closed = none
  | [], h => by
    obtain rfl : ns = [] := h
    rfl
  | (k, j) :: rest, h => by
    obtain ⟨l, n, ns', rfl, hl, hn, hrest⟩ := h
    rw [Node.skipMembers, hl.skip, Denotes.skip j hn, MembersDenote.skip rest hrest]
    rfl

end

end Node

end CloudClient.Json
