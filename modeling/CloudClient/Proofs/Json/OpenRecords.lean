import CloudClient.Proofs.Json.Shapes
import Mathlib.Data.List.Nodup

/-!
Records that keep their other members. These are read back in the order of their keys, whatever the
order they are written in.
-/

namespace CloudClient.Json

/-! ### The order of keys -/

/-- The members in the order of their keys. -/
def inKeyOrder (ms : List (String × Json)) : List (String × Json) :=
  ms.mergeSort fun m m' => m.1 ≤ m'.1

section

variable {key : String} {value : Json} {ms : List (String × Json)}

theorem setSorted_perm (hkey : key ∉ ms.map Prod.fst) :
    (setSorted key value ms).Perm ((key, value) :: ms) := by
  induction ms with
  | nil => rfl
  | cons m rest ih =>
    obtain ⟨k, v⟩ := m
    rw [List.map_cons, List.mem_cons, not_or] at hkey
    rw [setSorted, if_neg hkey.1]
    split
    · rfl
    · exact ((ih hkey.2).cons (k, v)).trans (.swap ..)

theorem setSorted_pairwise (hkey : key ∉ ms.map Prod.fst)
    (h : ms.Pairwise fun m m' => m.1 ≤ m'.1) :
    (setSorted key value ms).Pairwise fun m m' => m.1 ≤ m'.1 := by
  induction ms with
  | nil => exact List.pairwise_singleton _ _
  | cons m rest ih =>
    obtain ⟨k, v⟩ := m
    rw [List.map_cons, List.mem_cons, not_or] at hkey
    obtain ⟨hfirst, hrest⟩ := List.pairwise_cons.1 h
    rw [setSorted, if_neg hkey.1]
    split
    case isTrue hlt =>
      refine List.pairwise_cons.2 ⟨List.forall_mem_cons.2 ⟨Std.le_of_lt hlt, fun m hm => ?_⟩, h⟩
      exact String.le_trans (Std.le_of_lt hlt) (hfirst m hm)
    case isFalse hge =>
      refine List.pairwise_cons.2 ⟨fun m hm => ?_, ih hkey.2 hrest⟩
      obtain rfl | hm := List.mem_cons.1 ((setSorted_perm hkey.2).mem_iff.1 hm)
      · exact String.not_lt.1 hge
      · exact hfirst m hm

/-- Setting new members one by one keeps all of them, in order. -/
theorem foldl_setSorted : (ms acc : List (String × Json)) → ((acc ++ ms).map Prod.fst).Nodup →
    acc.Pairwise (fun m m' => m.1 ≤ m'.1) →
    (ms.foldl (fun acc (k, j) => setSorted k j acc) acc).Perm (acc ++ ms) ∧
      (ms.foldl (fun acc (k, j) => setSorted k j acc) acc).Pairwise fun m m' => m.1 ≤ m'.1
  | [], acc, _, hacc => ⟨by rw [List.append_nil]; rfl, hacc⟩
  | (k, j) :: rest, acc, hkeys, hacc => by
    have hfresh : k ∉ acc.map Prod.fst := fun hmem => by
      rw [List.map_append, List.nodup_append] at hkeys
      exact hkeys.2.2 k hmem k List.mem_cons_self rfl
    have hperm : (setSorted k j acc ++ rest).Perm (acc ++ (k, j) :: rest) :=
      ((setSorted_perm hfresh).append_right rest).trans List.perm_middle.symm
    obtain ⟨hall, hsorted⟩ := foldl_setSorted rest (setSorted k j acc)
      ((hperm.map Prod.fst).nodup_iff.2 hkeys) (setSorted_pairwise hfresh hacc)
    exact ⟨hall.trans hperm, hsorted⟩

theorem inKeyOrder_pairwise (ms : List (String × Json)) :
    (inKeyOrder ms).Pairwise fun m m' => m.1 ≤ m'.1 := by
  refine (List.pairwise_mergeSort ?_ ?_ ms).imp of_decide_eq_true
  · intro m m' m'' h h'
    exact decide_eq_true (String.le_trans (of_decide_eq_true h) (of_decide_eq_true h'))
  · intro m m'
    rw [Bool.or_eq_true, decide_eq_true_iff, decide_eq_true_iff]
    exact String.le_total m.1 m'.1

/-- With keys that differ, members are kept in the order of the keys. -/
theorem collect_eq_inKeyOrder (h : (ms.map Prod.fst).Nodup) : collect ms = inKeyOrder ms := by
  obtain ⟨hperm, hsorted⟩ := foldl_setSorted ms [] h .nil
  refine List.Perm.eq_of_pairwise (fun m m' hm hm' hle hle' => ?_) hsorted (inKeyOrder_pairwise ms)
    (hperm.trans (List.mergeSort_perm ..).symm)
  exact List.inj_on_of_nodup_map h (hperm.mem_iff.1 hm) ((List.mergeSort_perm ..).mem_iff.1 hm')
    (String.le_antisymm hle hle')

end

/-! ### Open records -/

/-- A value is kept with its keys in order. -/
theorem exists_values {levels : Nat} {m : String × Json} (hd : m.2.depth ≤ levels) {n : Node}
    (hn : n.Denotes m.2) :
    ∃ kept, Others.values levels m.1 n = .ok kept ∧ kept = [(m.1, m.2.sorted)] := by
  refine ⟨_, ?_, rfl⟩
  rw [Others.values, hn.value m.2 hd]
  rfl

theorem flatten_of_forall₂ {ms : List (String × Json)} {kept : List (List (String × Json))}
    (h : List.Forall₂ (fun m kept => kept = [(m.1, m.2.sorted)]) ms kept) :
    kept.flatten = ms.map fun m => (m.1, m.2.sorted) := by
  induction h with
  | nil => rfl
  | cons hm _ ih => rw [List.flatten_cons, hm, ih, List.singleton_append, List.map_cons]

/-- A record is read back with its other members in the order of their keys. -/
theorem Codec.Carries.openRecord {α : Type} {s : Shape α (List (String × Json) → α)}
    {others : α → List (String × Json)} {depth : Nat} {x y : α} {f : List (String × Json) → α}
    {label : String} (hkeys : (s.names ++ (others x).map Prod.fst).Nodup)
    (hfits : ∀ m ∈ others x, m.2.Fits depth) (hsorted : ∀ m ∈ others x, m.2.sorted = m.2)
    (hy : f (inKeyOrder (others x)) = y) (h : s.Carries s depth x f) :
    (s.openRecord label others).Carries (depth + 1) x y where
  fits := .obj fun m hm => (List.mem_append.1 hm).elim (h.fits m) (hfits m)
  ne_null := nofun
  reads := by
    refine .of_members fun levels ns hlevels hns => ?_
    obtain ⟨kept, hread, hkept⟩ := h.exists_readObject hkeys hlevels hns.shown
      (fun m hm _ hn => exists_values (hlevels m (List.mem_append_right _ hm)) hn) label
    have hself : (others x).map (fun m => (m.1, m.2.sorted)) = (others x).map id :=
      List.map_congr_left fun m hm => Prod.ext rfl (hsorted m hm)
    change (Reading.map _ (s.readObject label .values levels (keyed ns) .closed)).toExcept = _
    rw [hread, flatten_of_forall₂ hkept, hself, List.map_id]
    change Except.ok (f (collect (others x))) = _
    rw [collect_eq_inKeyOrder (List.nodup_append.1 hkeys).2.1, hy]

end CloudClient.Json
