import CloudClient.Json.Tagged
import CloudClient.Proofs.Json.Shapes

/-!
Unions that are read back as they were written: the tag leads to the case, and the case reads the
other members. Beside the fields of a record, the members of a union are those that are no fields.
-/

namespace CloudClient.Json

namespace Tagged

variable {α : Type} {t : Tagged α} {levels : Nat} {ms : List (String × Json)}

/-- The union writes `a` under a tag, as the members of a record, and finds the record by the tag.
The keys are not among the names of the fields beside. -/
inductive Restores (t : Tagged α) (beside : List String) (depth : Nat) (a : α) : Prop where
  | intro {σ : Type} {s : Shape σ α} {tag label : String} {project : α → Option σ} {y : α} (x : σ)
    (members : t.writeMembers a = (tagKey, .str tag) :: s.write x)
    (finds : t.ofTag tag = .ok (s.case tag label project))
    (names : (beside ++ tagKey :: s.names).Nodup)
    (same : y = a)
    (carries : s.Carries s depth x y)

theorem caseOf_of_denotes {n : Node} {tag : String} (hn : n.Denotes (.str tag)) :
    t.caseOf n = t.ofTag tag := by
  obtain ⟨l, rfl, hl⟩ := hn
  rw [caseOf, hl.text]
  rfl

theorem caseOfNumbered_of_denotes {n : Node} {tag : String} (hn : n.Denotes (.str tag)) :
    t.caseOfNumbered n = t.ofTag tag := by
  rw [← caseOf_of_denotes hn]
  obtain ⟨l, rfl, _⟩ := hn
  rfl

/-- After the tag, all members are kept. -/
theorem scanMembers_of_found {members : List (Except Fault String × Node)}
    (hshown : Shown members ms) (hlevels : ∀ m ∈ ms, m.2.depth ≤ levels)
    (htag : tagKey ∉ ms.map Prod.fst) (c : Case α) :
    t.scanMembers levels .closed (some c) members = .ok (some c, members) := by
  induction hshown with
  | nil => rfl
  | @cons member m members ms hm _ ih =>
    obtain ⟨key, n⟩ := member
    obtain ⟨k, j⟩ := m
    obtain ⟨rfl, hn⟩ : key = .ok k ∧ n.Denotes j := hm
    rw [List.forall_mem_cons] at hlevels
    rw [List.map_cons, List.mem_cons, not_or] at htag
    have hk : k ≠ tagKey := Ne.symm htag.1
    rw [scanMembers]
    change (if k = tagKey then _ else ((n.value levels).mapError Problem.notJson).bind _) = _
    rw [if_neg hk, hn.value j hlevels.1]
    change (t.scanMembers levels .closed (some c) members).bind _ = _
    rw [ih hlevels.2 htag.2]
    rfl

theorem exists_scanMembers {members : List (Except Fault String × Node)} {tag : String} {c : Case α}
    (hshown : Shown members ((tagKey, .str tag) :: ms)) (hlevels : ∀ m ∈ ms, m.2.depth ≤ levels)
    (htag : tagKey ∉ ms.map Prod.fst) (hfinds : t.ofTag tag = .ok c) :
    ∃ content, t.scanMembers levels .closed none members = .ok (some c, content) ∧
      Shown content ms := by
  cases hshown with
  | @cons member _ members _ hm hshown =>
    obtain ⟨key, n⟩ := member
    obtain ⟨rfl, hn⟩ : key = .ok tagKey ∧ n.Denotes (.str tag) := hm
    refine ⟨members, ?_, hshown⟩
    rw [scanMembers]
    change (t.caseOf n).bind _ = _
    rw [caseOf_of_denotes hn, hfinds]
    exact scanMembers_of_found hshown hlevels htag c

/-- The other members beside a record, which stand for named values. -/
def Kept (nodes : List (String × Node)) (ms : List (String × Json)) : Prop :=
  List.Forall₂ (fun node m => node.1 = m.1 ∧ node.2.Denotes m.2) nodes ms

theorem exists_pick_of_found {nodes : List (String × Node)} (hkept : Kept nodes ms)
    (htag : tagKey ∉ ms.map Prod.fst) (c : Case α) :
    ∃ content, t.pick (some c) nodes = .ok (some c, content) ∧ Shown content ms := by
  induction hkept with
  | nil => exact ⟨[], rfl, .nil⟩
  | @cons node m nodes ms hm _ ih =>
    obtain ⟨k, n⟩ := node
    obtain ⟨k', j⟩ := m
    obtain ⟨rfl, hn⟩ : k = k' ∧ n.Denotes j := hm
    rw [List.map_cons, List.mem_cons, not_or] at htag
    have hk : k ≠ tagKey := Ne.symm htag.1
    obtain ⟨content, hpick, hshown⟩ := ih htag.2
    refine ⟨(.ok k, n) :: content, ?_, .cons ⟨rfl, hn⟩ hshown⟩
    rw [pick, if_neg hk, hpick]
    rfl

theorem exists_pick {nodes : List (String × Node)} {tag : String} {c : Case α}
    (hkept : Kept nodes ((tagKey, .str tag) :: ms)) (htag : tagKey ∉ ms.map Prod.fst)
    (hfinds : t.ofTag tag = .ok c) :
    ∃ content, t.pick none nodes = .ok (some c, content) ∧ Shown content ms := by
  cases hkept with
  | @cons node _ nodes _ hm hkept =>
    obtain ⟨k, n⟩ := node
    obtain ⟨rfl, hn⟩ : k = tagKey ∧ n.Denotes (.str tag) := hm
    obtain ⟨content, hpick, hshown⟩ := exists_pick_of_found hkept htag c
    refine ⟨content, ?_, hshown⟩
    rw [pick, if_pos rfl]
    change (t.caseOfNumbered n).bind _ = _
    rw [caseOfNumbered_of_denotes hn, hfinds]
    exact hpick

/-- A member is kept as it is. -/
def Keeps (m : String × Json) (nodes : List (String × Node)) : Prop :=
  ∃ n : Node, nodes = [(m.1, n)] ∧ n.Denotes m.2

theorem exists_nodes {m : String × Json} (hd : m.2.depth ≤ levels) {n : Node}
    (hn : n.Denotes m.2) : ∃ kept, Others.nodes levels m.1 n = .ok kept ∧ Keeps m kept := by
  refine ⟨[(m.1, n)], ?_, n, rfl, hn⟩
  rw [Others.nodes, hn.value m.2 hd]
  rfl

theorem kept_flatten {kept : List (List (String × Node))} (h : List.Forall₂ Keeps ms kept) :
    Kept kept.flatten ms := by
  induction h with
  | nil => exact .nil
  | cons hm _ ih =>
    obtain ⟨n, rfl, hn⟩ := hm
    exact .cons ⟨rfl, hn⟩ ih

end Tagged

theorem Shape.Reads.case {σ α : Type} {s : Shape σ α} {ms : List (String × Json)} {a : α}
    {levels : Nat} {members : List (Except Fault String × Node)} (h : s.Reads ms a)
    (hkeys : (ms.map Prod.fst).Nodup) (hlevels : ∀ m ∈ ms, m.2.depth ≤ levels)
    (hshown : Shown members ms) (tag label : String) (project : α → Option σ) :
    (s.case tag label project).readObject levels members = .ok a := by
  obtain ⟨kept, hread⟩ := h.exists_readObject hkeys hlevels hshown ("struct variant " ++ label)
  change ((s.readObject ("struct variant " ++ label) .skipped levels members .closed).map
    Prod.fst).toExcept = _
  rw [hread]
  rfl

namespace Codec

variable {α β : Type} {t : Tagged α} {depth : Nat}

theorem Restores.union {a : α} (h : t.Restores [] depth a) : t.codec.Restores (depth + 1) a := by
  obtain @⟨_, s, tag, label, project, y, x, hmembers, hfinds, hnames, rfl, hcarries⟩ := h
  obtain ⟨htag, hnodup⟩ := List.nodup_cons.1 hnames
  have hencode : t.codec.encode y = .obj ((Tagged.tagKey, .str tag) :: s.write x) :=
    congrArg Json.obj hmembers
  refine ⟨?_, nofun, ?_⟩
  · rw [hencode]
    exact .obj (List.forall_mem_cons.2 ⟨.str tag, hcarries.fits⟩)
  · rw [hencode]
    refine .of_members fun levels ns hlevels hns => ?_
    have hfields := (List.forall_mem_cons.1 hlevels).2
    obtain ⟨content, hscan, hshown⟩ := Tagged.exists_scanMembers hns.shown hfields
      (fun hmem => htag (hcarries.keys.subset hmem)) hfinds
    change (t.scanMembers levels .closed none (keyed ns)).bind _ = _
    rw [hscan]
    exact (hcarries.reads_write hnodup).case (hcarries.nodup_keys hnodup) hfields hshown
      tag label project

/-- A union among the members of a record. -/
theorem Restores.within {s : Shape β (α → β)} {label : String} {get : β → α} {b : β} {f : α → β}
    (hs : s.Carries s depth b f) (hf : f (get b) = b)
    (h : t.Restores s.names depth (get b)) : (t.within s label get).Restores (depth + 1) b := by
  obtain @⟨_, cs, tag, caseLabel, project, y, x, hmembers, hfinds, hnames, hsame, hcarries⟩ := h
  obtain ⟨htag, hnodup⟩ := List.nodup_cons.1 (List.nodup_append.1 hnames).2.1
  have hencode : (t.within s label get).encode b =
      .obj (s.write b ++ (Tagged.tagKey, .str tag) :: cs.write x) :=
    congrArg (fun members => Json.obj (s.write b ++ members)) hmembers
  refine ⟨?_, nofun, ?_⟩
  · rw [hencode]
    refine .obj fun m hm => ?_
    obtain hm | hm := List.mem_append.1 hm
    · exact hs.fits m hm
    · exact List.forall_mem_cons.2 ⟨.str tag, hcarries.fits⟩ m hm
  · rw [hencode]
    refine .of_members fun levels ns hlevels hns => ?_
    have hunion : ∀ m ∈ (Tagged.tagKey, Json.str tag) :: cs.write x, m.2.depth ≤ levels :=
      fun m hm => hlevels m (List.mem_append_right _ hm)
    obtain ⟨kept, hread, hkept⟩ := hs.exists_readObject
      (hnames.sublist ((hcarries.keys.cons_cons Tagged.tagKey).append_left _)) hlevels hns.shown
      (fun m hm _ hn => Tagged.exists_nodes (hunion m hm) hn) label
    obtain ⟨content, hpick, hshown⟩ := Tagged.exists_pick (Tagged.kept_flatten hkept)
      (fun hmem => htag (hcarries.keys.subset hmem)) hfinds
    have hof : t.ofMembers levels kept.flatten = .ok (get b) := by
      rw [Tagged.ofMembers, hpick, ← hsame]
      exact (hcarries.reads_write hnodup).case (hcarries.nodup_keys hnodup)
        (List.forall_mem_cons.1 hunion).2 hshown tag caseLabel project
    change (s.readObject label .nodes levels (keyed ns) .closed).toExcept.bind _ = _
    rw [hread]
    change (t.ofMembers levels kept.flatten).bind _ = _
    rw [hof]
    exact congrArg Except.ok hf

end Codec

end CloudClient.Json
