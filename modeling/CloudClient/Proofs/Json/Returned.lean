import CloudClient.Proofs.Json.OtherMembers

/-!
Codecs that read what they write, if not always as what was written: a number with a fraction may
come back as another one, and with it the record that holds it.
-/

namespace CloudClient.Json

/-! ### What is read of a value -/

theorem rereadMembers_eq_map (ms : List (String × Json)) :
    rereadMembers ms = ms.map fun m => (m.1, m.2.reread) := by
  induction ms with
  | nil => rfl
  | cons m rest ih => rw [rereadMembers, ih, List.map_cons]

theorem keys_rereadMembers (ms : List (String × Json)) :
    (rereadMembers ms).map Prod.fst = ms.map Prod.fst := by
  rw [rereadMembers_eq_map, List.map_map]
  rfl

theorem depth_reread_float (x : Binary64) : x.reread.depth = 0 := by
  cases hx : x.isFinite with
  | true =>
    obtain ⟨_, m, hm, _⟩ := exists_reread hx
    simp [hm, depth]
  | false =>
    simp [reread_of_not_isFinite hx, depth]

mutual

theorem depth_reread : (j : Json) → j.reread.depth = j.depth
  | .null | .bool _ | .str _ | .number (.int _) => by rw [reread]; all_goals nofun
  | .number (.float x) => by
    rw [reread, depth_reread_float, depth]
    all_goals nofun
  | .arr items => by rw [reread, depth, depth, depthItems_reread items]
  | .obj members => by rw [reread, depth, depth, depthMembers_reread members]

theorem depthItems_reread : (items : List Json) → depthItems (rereadItems items) = depthItems items
  | [] => rfl
  | j :: rest => by rw [rereadItems, depthItems, depthItems, depth_reread j, depthItems_reread rest]

theorem depthMembers_reread : (members : List (String × Json)) →
    depthMembers (rereadMembers members) = depthMembers members
  | [] => rfl
  | (k, j) :: rest => by
    rw [rereadMembers, depthMembers, depthMembers, depth_reread j, depthMembers_reread rest]

end

/-! ### What is kept of a tree -/

mutual

/-- A value is nested no deeper than it may be. -/
theorem depth_le_of_value : (n : Node) → {levels : Nat} → {j : Json} → n.value levels = .ok j →
    j.depth ≤ levels
  | .null, _, _, h => by
    cases h
    exact Nat.zero_le _
  | .bool b, _, _, h => by
    cases h
    exact Nat.zero_le _
  | .number k, _, _, h => by
    rw [Node.value] at h
    cases hk : k.value <;> rw [hk] at h <;> cases h
    exact Nat.zero_le _
  | .text l, _, _, h => by
    rw [Node.value] at h
    cases hl : l.text <;> rw [hl] at h <;> cases h
    exact Nat.zero_le _
  | .array items tail, 0, _, h => by
    rw [Node.value] at h
    cases h
  | .array items tail, levels + 1, _, h => by
    rw [Node.value] at h
    cases hv : Node.values levels items <;> rw [hv] at h
    · cases h
    · cases ht : failIf tail.fault? <;> rw [ht] at h <;> cases h
      exact Nat.succ_le_succ (depthItems_le_of_values items hv)
  | .object members tail, 0, _, h => by
    rw [Node.value] at h
    cases h
  | .object members tail, levels + 1, _, h => by
    rw [Node.value] at h
    cases hv : Node.memberValues levels members <;> rw [hv] at h
    · cases h
    · cases ht : failIf tail.fault? <;> rw [ht] at h <;> cases h
      exact Nat.succ_le_succ (depthMembers_le_of_values members hv)
  | .broken b, _, _, h => by
    rw [Node.value] at h
    cases h

theorem depthItems_le_of_values : (ns : List Node) → {levels : Nat} → {items : List Json} →
    Node.values levels ns = .ok items → depthItems items ≤ levels
  | [], _, _, h => by
    cases h
    exact Nat.zero_le _
  | n :: rest, levels, _, h => by
    rw [Node.values] at h
    cases hv : n.value levels <;> rw [hv] at h
    · cases h
    · cases hrest : Node.values levels rest <;> rw [hrest] at h <;> cases h
      exact Nat.max_le.2 ⟨depth_le_of_value n hv, depthItems_le_of_values rest hrest⟩

theorem depthMembers_le_of_values : (ns : List (Literal × Node)) → {levels : Nat} →
    {members : List (String × Json)} → Node.memberValues levels ns = .ok members →
    depthMembers members ≤ levels
  | [], _, _, h => by
    cases h
    exact Nat.zero_le _
  | (l, n) :: rest, levels, _, h => by
    rw [Node.memberValues] at h
    cases hl : l.text <;> rw [hl] at h
    · cases h
    · cases hv : n.value levels <;> rw [hv] at h
      · cases h
      · cases hrest : Node.memberValues levels rest <;> rw [hrest] at h <;> cases h
        exact Nat.max_le.2 ⟨depth_le_of_value n hv, depthMembers_le_of_values rest hrest⟩

end

theorem depthMembers_setSorted {bound : Nat} {k : String} {v : Json} {ms : List (String × Json)}
    (hv : v.depth ≤ bound) (hms : depthMembers ms ≤ bound) :
    depthMembers (setSorted k v ms) ≤ bound := by
  refine depthMembers_le_iff.2 fun m hm => ?_
  rcases mem_of_setSorted hm with rfl | hm
  · exact hv
  · exact depthMembers_le_iff.1 hms m hm

mutual

theorem depth_sorted_le : (j : Json) → j.sorted.depth ≤ j.depth
  | .null | .bool _ | .number _ | .str _ => by
    rw [sorted]
    all_goals nofun
  | .arr items => by
    rw [sorted, depth, depth]
    exact Nat.succ_le_succ (depthItems_sorted_le items)
  | .obj members => by
    rw [sorted, depth, depth]
    exact Nat.succ_le_succ (depthMembers_sorted_le members [] (Nat.le_refl _) (Nat.zero_le _))

theorem depthItems_sorted_le : (items : List Json) →
    depthItems (sortedItems items) ≤ depthItems items
  | [] => Nat.le_refl _
  | j :: rest => by
    rw [sortedItems, depthItems, depthItems]
    exact Nat.max_le.2 ⟨Nat.le_trans (depth_sorted_le j) (Nat.le_max_left ..),
      Nat.le_trans (depthItems_sorted_le rest) (Nat.le_max_right ..)⟩

theorem depthMembers_sorted_le : (members acc : List (String × Json)) → {bound : Nat} →
    depthMembers members ≤ bound → depthMembers acc ≤ bound →
    depthMembers (sortedMembers members acc) ≤ bound
  | [], _, _, _, hacc => hacc
  | (k, j) :: rest, acc, bound, hmembers, hacc => by
    obtain ⟨hj, hrest⟩ := Nat.max_le.1 hmembers
    rw [sortedMembers]
    exact depthMembers_sorted_le rest _ hrest
      (depthMembers_setSorted (Nat.le_trans (depth_sorted_le j) hj) hacc)

end

/-! ### Codecs -/

variable {α β σ : Type} {depth : Nat}

/-- What the text of `a` is read as is decoded. -/
structure Codec.Returns (c : Codec α) (depth : Nat) (a : α) : Prop where
  depth_le : (c.encode a).depth ≤ depth
  reads : ∃ b, c.Reads (c.encode a).reread b

theorem Codec.Carries.returns {c : Codec α} {a b : α} (h : c.Carries depth a b) :
    c.Returns depth a := by
  refine ⟨h.fits.depth_le, b, ?_⟩
  rw [reread_of_survives _ h.fits.survives]
  exact h.reads

theorem Codec.Returns.exists_read {c : Codec α} {a : α} (h : c.Returns levelLimit a) :
    ∃ b, c.read (c.write a) = .ok b := by
  obtain ⟨b, hb⟩ := h.reads
  obtain ⟨n, hread, hn⟩ := exists_read_encode (c.encode a)
  refine ⟨b, read_eq_ok_iff.2 ?_⟩
  rw [write, hread]
  exact ⟨hb ((depth_reread _).trans_le h.depth_le) hn, rfl⟩

/-- An option that is unset is written `null`, and read as unset again. -/
theorem optional_returns {c : Codec α} {o : Option α}
    (h : ∀ a ∈ o, c.Returns depth a ∧ (c.encode a).reread ≠ .null) :
    (optional c).Returns depth o := by
  cases o with
  | none => exact ⟨Nat.zero_le depth, none, optional_reads_null⟩
  | some a =>
    obtain ⟨⟨hdepth, b, hb⟩, hnull⟩ := h a rfl
    refine ⟨hdepth, some b, fun levels n hd hn => ?_⟩
    have hmap : (c.decode levels n).map some = .ok (some b) := by
      rw [hb hd hn]
      rfl
    have hcut := hn.isCut
    cases n with
    | null => exact absurd hn.eq_null hnull
    | broken b => cases hcut
    | _ => exact hmap

theorem optional_returns_of_restores {c : Codec α} {o : Option α}
    (h : ∀ a ∈ o, c.Restores depth a) : (optional c).Returns depth o := by
  refine optional_returns fun a ha => ⟨(h a ha).returns, ?_⟩
  rw [reread_of_survives _ (h a ha).fits.survives]
  exact (h a ha).ne_null

/-- A finite amount is read again. -/
theorem price_returns {x : Binary64} (hx : x.isFinite = true) :
    price.Returns depth x ∧ (price.encode x).reread ≠ .null := by
  obtain ⟨_, m, hm, _, _⟩ := exists_reread hx
  have hreread : (price.encode x).reread = .number m := hm
  rw [hreread]
  refine ⟨⟨Nat.zero_le depth, m.toBinary64, fun levels n hd hn => ?_⟩, nofun⟩
  rw [hreread] at hd hn
  change ((n.value levels).mapError Problem.notJson).bind _ = _
  rw [hn.value _ hd]
  rfl

/-! ### Shapes -/

/-- All fields are written, and what they are read as is decoded. -/
structure Shape.Returns (s : Shape σ β) (depth : Nat) (x : σ) : Prop where
  keys : (s.write x).map Prod.fst = s.names
  depth_le : ∀ m ∈ s.write x, m.2.depth ≤ depth
  reads : ∀ ms : List (String × Json),
    (∀ m ∈ s.write x, ms.lookup m.1 = some m.2.reread) → ∃ y, s.Reads ms y

namespace Shape.Returns

theorem of {x : σ} {b : β} : (Shape.of σ b).Returns depth x where
  keys := rfl
  depth_le := nofun
  reads _ _ := ⟨b, fun _ _ _ _ _ => rfl⟩

theorem and {s : Shape σ (α → β)} {get : σ → α} {f : Field α} {x : σ} (h : s.Returns depth x)
    (hwritten : f.leaveOut (get x) = false) (hf : f.codec.Returns depth (get x)) :
    (s.and get f).Returns depth x := by
  have hfield : f.write (get x) = [(f.name, f.codec.encode (get x))] := by
    rw [Field.write, hwritten, if_neg Bool.false_ne_true]
  have hwrite : (s.and get f).write x = s.write x ++ [(f.name, f.codec.encode (get x))] := by
    change s.write x ++ f.write (get x) = _
    rw [hfield]
  refine ⟨?_, ?_, fun ms hms => ?_⟩
  · rw [hwrite, List.map_append, h.keys]
    rfl
  · rw [hwrite]
    exact List.forall_mem_append.2 ⟨h.depth_le, List.forall_mem_singleton.2 hf.depth_le⟩
  · rw [hwrite] at hms
    obtain ⟨hbefore, hlast⟩ := List.forall_mem_append.1 hms
    obtain ⟨g, hg⟩ := h.reads ms hbefore
    obtain ⟨a, ha⟩ := hf.reads
    refine ⟨g a, hg.and ?_⟩
    rw [Field.Reads, List.forall_mem_singleton.1 hlast]
    exact ha

/-- The members that are written, among others, are found under their names. -/
theorem lookup {s : Shape σ β} {x : σ} {rest : List (String × Json)} (h : s.Returns depth x)
    (hkeys : (s.names ++ rest.map Prod.fst).Nodup) :
    ((rereadMembers (s.write x ++ rest)).map Prod.fst).Nodup ∧ ∀ m ∈ s.write x,
      (rereadMembers (s.write x ++ rest)).lookup m.1 = some m.2.reread := by
  have hnodup : ((rereadMembers (s.write x ++ rest)).map Prod.fst).Nodup := by
    rwa [keys_rereadMembers, List.map_append, h.keys]
  refine ⟨hnodup, fun m hm => ?_⟩
  refine lookup_of_mem hnodup (m := (m.1, m.2.reread)) ?_
  rw [rereadMembers_eq_map]
  exact List.mem_map_of_mem (List.mem_append_left _ hm)

theorem record {s : Shape σ σ} {x : σ} (hnames : s.names.Nodup) (h : s.Returns depth x)
    (label : String) : (s.record label).Returns (depth + 1) x := by
  have hkeys : (s.names ++ ([] : List (String × Json)).map Prod.fst).Nodup := by
    rwa [List.map_nil, List.append_nil]
  obtain ⟨hnodup, hlookup⟩ := h.lookup hkeys
  rw [List.append_nil] at hnodup hlookup
  obtain ⟨y, hy⟩ := h.reads _ hlookup
  exact ⟨Nat.succ_le_succ (depthMembers_le_iff.2 h.depth_le), y, hy.record hnodup label⟩

/-- The other members are read again where they are not nested too deep. -/
theorem openRecord {s : Shape σ (List (String × Json) → σ)} {others : σ → List (String × Json)}
    {x : σ} (hkeys : (s.names ++ (others x).map Prod.fst).Nodup)
    (hothers : ∀ m ∈ others x, m.2.depth ≤ depth) (h : s.Returns depth x) (label : String) :
    (s.openRecord label others).Returns (depth + 1) x := by
  have hall : ∀ m ∈ s.write x ++ others x, m.2.depth ≤ depth :=
    List.forall_mem_append.2 ⟨h.depth_le, hothers⟩
  obtain ⟨hnodup, hlookup⟩ := h.lookup hkeys
  obtain ⟨f, hf⟩ := h.reads _ hlookup
  refine ⟨Nat.succ_le_succ (depthMembers_le_iff.2 hall),
    f (collect (((rereadMembers (s.write x ++ others x)).filter (·.1 ∉ s.names)).map
      fun m => (m.1, m.2.sorted))), ?_⟩
  refine .of_members fun levels ns hlevels hns => ?_
  obtain ⟨kept, hscan, hkept⟩ := hns.shown.exists_scan hnodup
    (fun m hm _ n hn => exists_values (hlevels m hm) hn) 0 [] fun _ _ => List.not_mem_nil
  change (Reading.map _ (s.readObject label .values levels (keyed ns) .closed)).toExcept = _
  rw [hf.readObject hlevels hns.shown hscan label, flatten_of_forall₂ hkept]
  rfl

end Shape.Returns

end CloudClient.Json
