import CloudClient.Proofs.Json.OpenRecords

/-!
What becomes of the members of an object that are no fields of the record it is read as. Each key
among them is kept once, with the last of its values, and is written back with that; so the keys
that are written all differ, in whatever order the members came and however often they were
repeated.
-/

namespace CloudClient.Json

/-! ### Each key with its last value -/

section

variable {key : String} {value : Json} {ms : List (String × Json)}

theorem mem_of_setSorted {m : String × Json} (h : m ∈ setSorted key value ms) :
    m = (key, value) ∨ m ∈ ms := by
  induction ms with
  | nil => exact .inl (List.mem_singleton.1 h)
  | cons m' rest ih =>
    obtain ⟨k, v⟩ := m'
    rw [setSorted] at h
    split at h
    · exact (List.mem_cons.1 h).imp_right (List.mem_cons_of_mem _)
    · split at h
      · exact List.mem_cons.1 h
      · rcases List.mem_cons.1 h with rfl | h
        · exact .inr List.mem_cons_self
        · exact (ih h).imp_right (List.mem_cons_of_mem _)

/-- A key that is set again takes the place that it had. -/
theorem setSorted_increasing (h : ms.Pairwise fun m m' => m.1 < m'.1) :
    (setSorted key value ms).Pairwise fun m m' => m.1 < m'.1 := by
  induction ms with
  | nil => exact List.pairwise_singleton _ _
  | cons m rest ih =>
    obtain ⟨k, v⟩ := m
    obtain ⟨hfirst, hrest⟩ := List.pairwise_cons.1 h
    rw [setSorted]
    split
    case isTrue heq =>
      rw [heq]
      exact List.pairwise_cons.2 ⟨hfirst, hrest⟩
    case isFalse hne =>
      split
      case isTrue hlt =>
        refine List.pairwise_cons.2 ⟨List.forall_mem_cons.2 ⟨hlt, fun m hm => ?_⟩, h⟩
        exact String.lt_trans hlt (hfirst m hm)
      case isFalse hge =>
        refine List.pairwise_cons.2 ⟨fun m hm => ?_, ih hrest⟩
        rcases mem_of_setSorted hm with rfl | hm
        · exact Std.lt_of_le_of_ne (String.not_lt.1 hge) (Ne.symm hne)
        · exact hfirst m hm

theorem lookup_cons_eq_ite {β : Type} (k key : String) (b : β) (ms : List (String × β)) :
    ((key, b) :: ms).lookup k = if k = key then some b else ms.lookup k := by
  rw [List.lookup_cons]
  by_cases hk : k = key
  · rw [hk, beq_self_eq_true, if_pos rfl]
  · rw [beq_eq_false_iff_ne.2 hk, if_neg hk]

theorem isSome_lookup_iff {β : Type} {ms : List (String × β)} {k : String} :
    (ms.lookup k).isSome ↔ k ∈ ms.map Prod.fst := by
  rw [List.lookup_isSome_iff, List.mem_map]
  refine exists_congr fun m => and_congr_right fun _ => ?_
  rw [beq_iff_eq]
  exact eq_comm

theorem lookup_filter {β : Type} {p : String → Bool} {k : String} (hk : p k = true)
    (ms : List (String × β)) : (ms.filter (p ·.1)).lookup k = ms.lookup k := by
  induction ms with
  | nil => rfl
  | cons m rest ih =>
    obtain ⟨k', b⟩ := m
    rw [lookup_cons_eq_ite]
    by_cases hk' : p k' = true
    · rw [List.filter_cons_of_pos (by simpa using hk'), lookup_cons_eq_ite, ih]
    · rw [List.filter_cons_of_neg (by simpa using hk'), ih, if_neg]
      rintro rfl
      exact hk' hk

theorem lookup_of_mem {β : Type} {ms : List (String × β)} (hkeys : (ms.map Prod.fst).Nodup)
    {m : String × β} (h : m ∈ ms) : ms.lookup m.1 = some m.2 := by
  obtain ⟨before, after, rfl⟩ := List.append_of_mem h
  rw [List.map_append, List.map_cons] at hkeys
  have hbefore : m.1 ∉ before.map Prod.fst := fun hmem =>
    (List.nodup_append.1 hkeys).2.2 _ hmem _ List.mem_cons_self rfl
  rw [List.lookup_append, lookup_eq_none_of_notMem hbefore, Option.none_or]
  exact (lookup_cons_eq_ite ..).trans (if_pos rfl)

theorem lookup_setSorted (key : String) (value : Json) (ms : List (String × Json)) (k : String) :
    (setSorted key value ms).lookup k = if k = key then some value else ms.lookup k := by
  induction ms with
  | nil => exact lookup_cons_eq_ite k key value []
  | cons m rest ih =>
    obtain ⟨k', v⟩ := m
    rw [setSorted, lookup_cons_eq_ite k k']
    split
    case isTrue heq =>
      rw [lookup_cons_eq_ite, heq]
      split <;> rfl
    case isFalse hne =>
      split
      case isTrue => rw [lookup_cons_eq_ite, lookup_cons_eq_ite]
      case isFalse =>
        rw [lookup_cons_eq_ite, ih]
        by_cases hk : k = k'
        · rw [if_pos hk, if_pos hk, if_neg (hk ▸ Ne.symm hne)]
        · rw [if_neg hk, if_neg hk]

end

theorem nodup_collect (ms : List (String × Json)) : ((collect ms).map Prod.fst).Nodup := by
  have hincreasing (acc : List (String × Json)) (hacc : acc.Pairwise fun m m' => m.1 < m'.1) :
      (ms.foldl (fun acc m => setSorted m.1 m.2 acc) acc).Pairwise fun m m' => m.1 < m'.1 := by
    induction ms generalizing acc with
    | nil => exact hacc
    | cons m rest ih => exact ih _ (setSorted_increasing hacc)
  exact List.pairwise_map.2 ((hincreasing [] .nil).imp Std.ne_of_lt)

theorem lookup_collect (ms : List (String × Json)) (k : String) :
    (collect ms).lookup k = ms.reverse.lookup k := by
  have hfold (acc : List (String × Json)) :
      (ms.foldl (fun acc m => setSorted m.1 m.2 acc) acc).lookup k =
        (ms.reverse.lookup k).or (acc.lookup k) := by
    induction ms generalizing acc with
    | nil => rfl
    | cons m rest ih =>
      obtain ⟨k', j⟩ := m
      rw [List.foldl_cons, ih, lookup_setSorted, List.reverse_cons, List.lookup_append,
        Option.or_assoc, lookup_cons_eq_ite]
      by_cases hk : k = k'
      · rw [if_pos hk, if_pos hk, Option.some_or]
      · rw [if_neg hk, if_neg hk, List.lookup_nil, Option.none_or]
  exact (hfold []).trans Option.or_none

/-! ### Going through an object -/

namespace Reading

variable {α β : Type} {r : Reading α}

theorem both_eq_ok_iff {r : Reading (α → β)} {r' : Reading α} {b : β} :
    r.both r' = .ok b ↔ ∃ f a, r = .ok f ∧ r' = .ok a ∧ b = f a := by
  constructor
  · intro h
    cases r with
    | ok f =>
      cases r' with
      | ok a =>
        cases h
        exact ⟨f, a, rfl, rfl, rfl⟩
      | fault p e => cases h
    | fault p e =>
      cases r' with
      | ok a => cases h
      | fault q e' =>
        rw [both] at h
        split at h <;> cases h
  · rintro ⟨f, a, rfl, rfl, rfl⟩
    rfl

theorem map_eq_ok_iff {f : α → β} {b : β} : r.map f = .ok b ↔ ∃ a, r = .ok a ∧ b = f a := by
  cases r <;> simp [map, eq_comm]

theorem toExcept_eq_ok_iff {a : α} : r.toExcept = .ok a ↔ r = .ok a := by
  cases r <;> simp [toExcept]

theorem ofExcept_eq_ok_iff {place : Nat} {e : Except Problem α} {a : α} :
    ofExcept place e = .ok a ↔ e = .ok a := by
  cases e <;> simp [ofExcept]

end Reading

/-- Members whose keys have been read. -/
def withKeys (ms : List (String × Node)) : List (Except Fault String × Node) :=
  ms.map fun m => (.ok m.1, m.2)

/-- An object that is gone through to its end is closed, and all of its keys are read. -/
theorem closed_of_scan {κ : Type} {names : List String} {others : Others κ} {levels place : Nat}
    {tail : ObjectEnd} {seen : List String} {members : List (Except Fault String × Node)}
    {kept : List κ} (h : scan names others levels tail place seen members = .ok kept) :
    tail = .closed ∧ ∃ ms, members = withKeys ms := by
  induction members generalizing place seen kept with
  | nil =>
    refine ⟨?_, [], rfl⟩
    rw [scan] at h
    cases tail <;> first | rfl | cases h
  | cons member members ih =>
    obtain ⟨key, n⟩ := member
    cases key with
    | error f => cases h
    | ok k =>
      have hrest {place : Nat} {seen : List String} {kept : List κ}
          (h : scan names others levels tail place seen members = .ok kept) :
          tail = .closed ∧ ∃ ms, (Except.ok k, n) :: members = withKeys ms := by
        obtain ⟨htail, ms, rfl⟩ := ih h
        exact ⟨htail, (k, n) :: ms, rfl⟩
      rw [scan] at h
      split at h
      · split at h
        · cases h
        · exact hrest h
      · split at h
        · cases h
        · obtain ⟨kept', h, _⟩ := Reading.map_eq_ok_iff.1 h
          exact hrest h

/-! ### What is kept of an object -/

/-- What is kept of the members of an object: each key that is no field, with the last of its
values. -/
structure Kept (names : List String) (levels : Nat) (members : List (String × Node))
    (kept : List (String × Json)) : Prop where
  keys : ∀ k, k ∈ kept.map Prod.fst ↔ k ∈ members.map Prod.fst ∧ k ∉ names
  distinct : (kept.map Prod.fst).Nodup
  last : ∀ m ∈ kept, ∃ before n after, members = before ++ (m.1, n) :: after ∧
    m.1 ∉ after.map Prod.fst ∧ anything.decode levels n = .ok m.2

/-- A member and what is read of it. -/
def Taken (levels : Nat) (m : String × Node) (m' : String × Json) : Prop :=
  m.1 = m'.1 ∧ anything.decode levels m.2 = .ok m'.2

section

variable {names seen : List String} {levels place : Nat} {tail : ObjectEnd}
  {found : List (String × Json)}

theorem taken_of_values {k : String} {n : Node} (h : Others.values levels k n = .ok found) :
    ∃ j, found = [(k, j)] ∧ Taken levels (k, n) (k, j) := by
  rw [Others.values] at h
  cases hvalue : n.value levels with
  | error f =>
    rw [hvalue] at h
    cases h
  | ok j =>
    rw [hvalue] at h
    cases h
    refine ⟨j.sorted, rfl, rfl, ?_⟩
    change ((n.value levels).mapError Problem.notJson).map sorted = _
    rw [hvalue]
    rfl

theorem taken_of_scan {ms : List (String × Node)}
    (h : scan names Others.values levels .closed place seen (withKeys ms) = .ok found) :
    List.Forall₂ (Taken levels) (ms.filter (·.1 ∉ names)) found := by
  induction ms generalizing place seen found with
  | nil =>
    cases h
    exact .nil
  | cons m rest ih =>
    obtain ⟨k, n⟩ := m
    rw [withKeys, List.map_cons, ← withKeys, scan] at h
    split at h
    case isTrue hk =>
      rw [List.filter_cons_of_neg (by simpa using hk)]
      split at h
      · cases h
      · exact ih h
    case isFalse hk =>
      rw [List.filter_cons_of_pos (by simpa using hk)]
      split at h
      · cases h
      · rename_i kept hothers
        obtain ⟨kept', hscan, rfl⟩ := Reading.map_eq_ok_iff.1 h
        obtain ⟨j, rfl, hj⟩ := taken_of_values hothers
        exact .cons hj (ih hscan)

theorem keys_eq_of_taken {ms : List (String × Node)} (h : List.Forall₂ (Taken levels) ms found) :
    ms.map Prod.fst = found.map Prod.fst := by
  induction h with
  | nil => rfl
  | cons hm _ ih => rw [List.map_cons, List.map_cons, hm.1, ih]

theorem exists_lookup_of_taken {ms : List (String × Node)} {k : String} {j : Json}
    (h : List.Forall₂ (Taken levels) ms found) (hj : found.lookup k = some j) :
    ∃ n, ms.lookup k = some n ∧ anything.decode levels n = .ok j := by
  induction h with
  | nil => cases hj
  | @cons m m' ms found hm _ ih =>
    rw [lookup_cons_eq_ite] at hj ⊢
    rw [← hm.1] at hj
    by_cases hk : k = m.1
    · rw [if_pos hk] at hj ⊢
      cases hj
      exact ⟨m.2, rfl, hm.2⟩
    · rw [if_neg hk] at hj ⊢
      exact ih hj

theorem kept_collect {ms : List (String × Node)}
    (h : List.Forall₂ (Taken levels) (ms.filter (·.1 ∉ names)) found) :
    Kept names levels ms (collect found) := by
  have hkeys (k : String) :
      k ∈ (collect found).map Prod.fst ↔ k ∈ ms.map Prod.fst ∧ k ∉ names := by
    rw [← isSome_lookup_iff, lookup_collect, isSome_lookup_iff, List.map_reverse,
      List.mem_reverse, ← keys_eq_of_taken h]
    simp only [List.mem_map, List.mem_filter, decide_eq_true_eq]
    constructor
    · rintro ⟨m, ⟨hm, hfresh⟩, rfl⟩
      exact ⟨⟨m, hm, rfl⟩, hfresh⟩
    · rintro ⟨⟨m, hm, rfl⟩, hfresh⟩
      exact ⟨m, ⟨hm, hfresh⟩, rfl⟩
  refine ⟨hkeys, nodup_collect found, fun m hm => ?_⟩
  have hlast : found.reverse.lookup m.1 = some m.2 := by
    rw [← lookup_collect]
    exact lookup_of_mem (nodup_collect found) hm
  obtain ⟨n, hn, hdecode⟩ := exists_lookup_of_taken (List.forall₂_reverse_iff.2 h) hlast
  have hfresh : m.1 ∉ names := ((hkeys m.1).1 (List.mem_map_of_mem hm)).2
  rw [← List.filter_reverse, lookup_filter (p := (· ∉ names)) (decide_eq_true hfresh)] at hn
  -- what stands first from behind stands last
  obtain ⟨after, before, hms, hafter⟩ := List.lookup_eq_some_iff.1 hn
  refine ⟨before.reverse, n, after.reverse, ?_, fun hmem => ?_, hdecode⟩
  · rw [← List.reverse_reverse ms, hms]
    simp
  · rw [List.map_reverse, List.mem_reverse] at hmem
    obtain ⟨m', hm', heq⟩ := List.mem_map.1 hmem
    exact bne_iff_ne.1 (hafter m' hm') heq.symm

end

/-! ### Open records -/

theorem Field.write_keys {α : Type} (f : Field α) (a : α) :
    ((f.write a).map Prod.fst).Sublist [f.name] := by
  rw [write]
  split
  · exact List.nil_sublist _
  · exact List.Sublist.refl _

namespace Shape

variable {σ α β : Type}

/-- Whatever is read of the fields has this property; and each field is written once at most, under
its name. -/
structure Makes (s : Shape σ β) (P : β → Prop) : Prop where
  yields : ∀ levels whole source b, s.read levels whole source = .ok b → P b
  writes : ∀ x, ((s.write x).map Prod.fst).Sublist s.names

theorem Makes.of {b : β} {P : β → Prop} (h : P b) : (Shape.of σ b).Makes P where
  yields := by
    rintro levels whole source _ ⟨⟩
    exact h
  writes _ := .slnil

theorem Makes.and {s : Shape σ (α → β)} {get : σ → α} {f : Field α} {P : β → Prop}
    (h : s.Makes fun g => ∀ a, P (g a)) : (s.and get f).Makes P where
  yields levels whole source b hb := by
    obtain ⟨g, a, hg, _, rfl⟩ := Reading.both_eq_ok_iff.1 hb
    exact h.yields levels whole source g hg a
  writes x := by
    rw [Shape.and, List.map_append]
    exact (h.writes x).append (f.write_keys _)

theorem readObject_eq_ok {κ : Type} {s : Shape σ β} {label : String} {others : Others κ}
    {levels : Nat} {members : List (Except Fault String × Node)} {tail : ObjectEnd} {b : β}
    {kept : List κ} (h : s.readObject label others levels members tail = .ok (b, kept)) :
    scan s.names others levels tail 0 [] members = .ok kept ∧
      s.read levels (s.describe label) (.object members) = .ok b := by
  obtain ⟨f, b', hmapped, hfields, heq⟩ := Reading.both_eq_ok_iff.1 h
  obtain ⟨kept', hscan, rfl⟩ := Reading.map_eq_ok_iff.1 hmapped
  cases heq
  exact ⟨hscan, hfields⟩

end Shape

theorem toOption_eq_some_iff {ε α : Type} {r : Except ε α} {a : α} :
    r.toOption = some a ↔ r = .ok a := by
  cases r <;> simp [Except.toOption]

/-- What a record keeps of the other members of an object it is read from, which goes by `others`;
and what is written of the record. -/
structure Codec.Retains {α : Type} (c : Codec α) (names : List String)
    (others : α → List (String × Json)) (levels : Nat) (n : Node) (x : α) : Prop where
  read : ∃ inner ns members, levels = inner + 1 ∧ n = .object ns .closed ∧
    keyed ns = members.map (fun m => (.ok m.1, m.2)) ∧ Kept names inner members (others x)
  written : ∃ ms, c.encode x = .obj ms ∧ (ms.map Prod.fst).Nodup ∧ ∀ m ∈ others x, m ∈ ms

/-- All that is read keeps the members that go by none of the names. -/
def Codec.KeepsOthers {α : Type} (c : Codec α) (names : List String)
    (others : α → List (String × Json)) : Prop :=
  ∀ levels n x, c.decode levels n = .ok x → c.Retains names others levels n x

theorem keepsOthers_openRecord {α : Type} {s : Shape α (List (String × Json) → α)}
    {label : String} {others : α → List (String × Json)} (hnames : s.names.Nodup)
    (h : s.Makes fun f => ∀ m, others (f m) = m) :
    (s.openRecord label others).KeepsOthers s.names others := by
  intro levels n x hx
  -- only objects are read
  cases n with
  | object ns tail =>
    cases levels with
    | zero => cases hx
    | succ inner =>
      change (Reading.map _ (s.readObject label .values inner (keyed ns) tail)).toExcept = _ at hx
      cases hread : s.readObject label .values inner (keyed ns) tail with
      | fault p e =>
        rw [hread] at hx
        cases hx
      | ok fields =>
        obtain ⟨f, found⟩ := fields
        rw [hread] at hx
        cases hx
        obtain ⟨hscan, hfields⟩ := Shape.readObject_eq_ok hread
        obtain ⟨rfl, members, hmembers⟩ := closed_of_scan hscan
        rw [hmembers] at hscan
        have htaken := taken_of_scan hscan
        have hothers : others (f (collect found)) = collect found := h.yields _ _ _ _ hfields _
        have hkept : Kept s.names inner members (collect found) := kept_collect htaken
        refine ⟨⟨inner, ns, members, rfl, rfl, hmembers, ?_⟩, _, rfl, ?_, fun m hm => ?_⟩
        · rwa [hothers]
        · rw [hothers, List.map_append]
          refine List.nodup_append.2 ⟨hnames.sublist (h.writes _), hkept.distinct, ?_⟩
          rintro k hk _ hk' rfl
          exact ((hkept.keys k).1 hk').2 ((h.writes _).subset hk)
        · exact List.mem_append_right _ hm
  | _ => cases hx

end CloudClient.Json
