import CloudClient.Json.Choice
import CloudClient.Proofs.Json.Printed

/-!
Codecs that read back what they write. A value is restored when its JSON is read back, is nested no
deeper than the reader goes, and is decoded, from whatever tree stands for it, as the value.
-/

namespace CloudClient.Json

/-! ### Values that are read back -/

/-- The value is read back, with no more than `depth` arrays and objects open at once. -/
structure Fits (depth : Nat) (j : Json) : Prop where
  survives : j.Survives
  depth_le : j.depth ≤ depth

theorem itemsSurvive_iff {items : List Json} : ItemsSurvive items ↔ ∀ j ∈ items, j.Survives := by
  induction items with
  | nil => simp [ItemsSurvive]
  | cons j rest ih => simp [ItemsSurvive, ih]

theorem membersSurvive_iff {members : List (String × Json)} :
    MembersSurvive members ↔ ∀ m ∈ members, m.2.Survives := by
  induction members with
  | nil => simp [MembersSurvive]
  | cons m rest ih => simp [MembersSurvive, ih]

theorem depthItems_le_iff {items : List Json} {depth : Nat} :
    depthItems items ≤ depth ↔ ∀ j ∈ items, j.depth ≤ depth := by
  induction items with
  | nil => simp [depthItems]
  | cons j rest ih => rw [depthItems, List.forall_mem_cons, ← ih, Nat.max_le]

theorem depthMembers_le_iff {members : List (String × Json)} {depth : Nat} :
    depthMembers members ≤ depth ↔ ∀ m ∈ members, m.2.depth ≤ depth := by
  induction members with
  | nil => simp [depthMembers]
  | cons m rest ih => rw [depthMembers, List.forall_mem_cons, ← ih, Nat.max_le]

namespace Fits

variable {depth : Nat}

theorem arr {items : List Json} (h : ∀ j ∈ items, j.Fits depth) :
    (Json.arr items).Fits (depth + 1) where
  survives := itemsSurvive_iff.2 fun j hj => (h j hj).survives
  depth_le := Nat.succ_le_succ (depthItems_le_iff.2 fun j hj => (h j hj).depth_le)

theorem obj {members : List (String × Json)} (h : ∀ m ∈ members, m.2.Fits depth) :
    (Json.obj members).Fits (depth + 1) where
  survives := membersSurvive_iff.2 fun m hm => (h m hm).survives
  depth_le := Nat.succ_le_succ (depthMembers_le_iff.2 fun m hm => (h m hm).depth_le)

theorem str (s : String) : (Json.str s).Fits depth :=
  ⟨trivial, Nat.zero_le depth⟩

theorem int (i : Integer) : (Json.number (.int i)).Fits depth :=
  ⟨trivial, Nat.zero_le depth⟩

end Fits

/-! ### Codecs -/

namespace Codec

variable {α : Type}

/-- Every tree that stands for the value is decoded as `a`. -/
def Reads (c : Codec α) (j : Json) (a : α) : Prop :=
  ∀ ⦃levels : Nat⦄ ⦃n : Node⦄, j.depth ≤ levels → n.Denotes j → c.decode levels n = .ok a

/-- An object is decoded from its members, with one level less to go. -/
theorem Reads.of_members {c : Codec α} {ms : List (String × Json)} {a : α}
    (h : ∀ ⦃levels : Nat⦄ ⦃ns : List (Literal × Node)⦄, (∀ m ∈ ms, m.2.depth ≤ levels) →
      Node.MembersDenote ns ms → c.decode (levels + 1) (.object ns .closed) = .ok a) :
    c.Reads (.obj ms) a := by
  intro levels n hd hn
  obtain ⟨ns, rfl, hns⟩ := hn
  cases levels with
  | zero => exact absurd hd (Nat.not_succ_le_zero _)
  | succ levels => exact h (depthMembers_le_iff.1 (Nat.le_of_succ_le_succ hd)) hns

/-- What the codec writes for `a` is read as `b`. It is never `null`, which would be taken for an
option that is unset. -/
structure Carries (c : Codec α) (depth : Nat) (a b : α) : Prop where
  fits : (c.encode a).Fits depth
  ne_null : c.encode a ≠ .null
  reads : c.Reads (c.encode a) b

/-- What the codec writes for `a` is read back as `a`. -/
abbrev Restores (c : Codec α) (depth : Nat) (a : α) : Prop :=
  c.Carries depth a a

/-- The text of a value is read as what its trees are decoded as. -/
theorem Reads.read {c : Codec α} {j : Json} {a : α} (h : c.Reads j a) (hj : j.Fits levelLimit) :
    c.read j.encode = .ok a := by
  obtain ⟨n, hread, hn⟩ := exists_read hj.survives
  rw [read_eq_ok_iff, hread]
  exact ⟨h hj.depth_le hn, rfl⟩

/-- Whatever is written is read back. -/
def Lossless (c : Codec α) : Prop :=
  ∀ a, c.read (c.write a) = .ok a

theorem lossless_of_restores {c : Codec α} (h : ∀ a, c.Restores levelLimit a) : c.Lossless :=
  fun a => (h a).reads.read (h a).fits

end Codec

/-! ### Strings, flags and whole numbers -/

variable {depth : Nat}

theorem string_restores (s : String) : string.Restores depth s where
  fits := .str s
  ne_null := nofun
  reads _ _ _ hn := by
    obtain ⟨l, rfl, hl⟩ := hn
    change l.text.mapError Problem.notJson = _
    rw [hl.text]
    rfl

theorem boolean_restores (b : Bool) : boolean.Restores depth b where
  fits := ⟨trivial, Nat.zero_le depth⟩
  ne_null := nofun
  reads _ n _ hn := by
    obtain rfl : n = .bool b := hn
    rfl

theorem decodeBelow_of_denotes {bound : Nat} {expected : String} {n : Node} {i : Integer} {k : Nat}
    (hn : n.Denotes (.number (.int i))) (hi : i.val = k) (hk : k < bound) :
    decodeBelow bound expected n = .ok k := by
  obtain ⟨numeral, rfl, hvalue⟩ := hn
  rw [decodeBelow, hvalue]
  dsimp only
  rw [hi, if_pos ⟨Int.natCast_nonneg k, Int.ofNat_lt.2 hk⟩, Int.toNat_natCast]

theorem uint16_restores (m : UInt16) : uint16.Restores depth m where
  fits := .int _
  ne_null := nofun
  reads _ n _ hn := by
    change (decodeBelow (2 ^ 16) "u16" n).map UInt16.ofNat = _
    rw [decodeBelow_of_denotes hn rfl m.toNat_lt, Except.map, UInt16.ofNat_toNat]

theorem uint32_restores (m : UInt32) : uint32.Restores depth m where
  fits := .int _
  ne_null := nofun
  reads _ n _ hn := by
    change (decodeBelow (2 ^ 32) "u32" n).map UInt32.ofNat = _
    rw [decodeBelow_of_denotes hn rfl m.toNat_lt, Except.map, UInt32.ofNat_toNat]

/-- A number with a fraction is restored where its text is read back. -/
theorem float_restores {x : Binary64} (hx : x.Survives) : float.Restores depth x where
  fits := ⟨hx, Nat.zero_le depth⟩
  ne_null := nofun
  reads _ n _ hn := by
    obtain ⟨numeral, rfl, hvalue⟩ := hn
    change (numeral.value.mapError Problem.notJson).map Number.toBinary64 = _
    rw [hvalue]
    rfl

/-! ### Enumerations -/

/-- A choice is restored where its name leads back to it. -/
theorem Choice.restores {α : Type} {c : Choice α} {a : α} (h : c.names.lookup (c.name a) = some a) :
    c.codec.Restores depth a where
  fits := .str _
  ne_null := nofun
  reads _ _ _ hn := by
    obtain ⟨l, rfl, hl⟩ := hn
    change (l.text.mapError Problem.notJson).bind c.ofName = _
    rw [hl.text]
    change c.ofName (c.name a) = _
    rw [Choice.ofName, h]

/-! ### Lists and options -/

section

variable {α : Type} {c : Codec α}

theorem decodeList_of_denotes {levels : Nat} {ns : List Node} : (as : List α) →
    (∀ a ∈ as, c.Reads (c.encode a) a) → depthItems (as.map c.encode) ≤ levels →
    Node.ItemsDenote ns (as.map c.encode) → decodeList (c.decode levels) .closed ns = .ok as
  | [], _, _, hns => by
    obtain rfl : ns = [] := hns
    rfl
  | a :: rest, has, hd, hns => by
    obtain ⟨n, ns', rfl, hn, hrest⟩ := hns
    rw [List.map_cons, depthItems_le_iff, List.forall_mem_cons] at hd
    rw [decodeList, has a List.mem_cons_self hd.1 hn,
      decodeList_of_denotes rest (fun b hb => has b (List.mem_cons_of_mem a hb))
        (depthItems_le_iff.2 hd.2) hrest]
    rfl

theorem list_restores {as : List α} (h : ∀ a ∈ as, c.Restores depth a) :
    (list c).Restores (depth + 1) as where
  fits := .arr <| List.forall_mem_map.2 fun a ha => (h a ha).fits
  ne_null := nofun
  reads levels _ hd hn := by
    obtain ⟨ns, rfl, hns⟩ := hn
    cases levels with
    | zero => exact absurd hd (Nat.not_succ_le_zero _)
    | succ levels =>
      exact decodeList_of_denotes as (fun a ha => (h a ha).reads) (Nat.le_of_succ_le_succ hd) hns

/-- An option is restored where what it holds is. -/
theorem option_restores {o : Option α} (h : ∀ a ∈ o, c.Restores depth a) :
    Option.Rel (c.Carries depth) o o := by
  cases o with
  | none => exact .none
  | some a => exact .some (h a rfl)

theorem optional_reads_null : (optional c).Reads .null none := by
  rintro levels _ _ ⟨⟩
  rfl

/-- A tree that stands for anything but `null` is not taken for an unset option. -/
theorem optional_carries {a b : α} (h : c.Carries depth a b) :
    (optional c).Carries depth (some a) (some b) where
  fits := h.fits
  ne_null := h.ne_null
  reads levels n hd hn := by
    have hmap : (c.decode levels n).map some = .ok (some b) := by
      rw [h.reads hd hn]
      rfl
    have hcut := hn.isCut
    cases n with
    | null => exact absurd hn.eq_null h.ne_null
    | broken b => cases hcut
    | _ => exact hmap

end

end CloudClient.Json
