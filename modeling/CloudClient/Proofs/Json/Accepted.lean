import CloudClient.Proofs.Json.OtherMembers

/-!
Which trees a record is read from: no more and no fewer. An object has to be whole, with keys that
are read, no field twice, and other members that can be passed over; an array has to be whole and
no longer than the fields. What is left to ask is what stands in the place of each field.
-/

namespace CloudClient.Json

/-! ### Members with their keys -/

/-- The members of an object whose keys are read. -/
def named (members : List (Literal × Node)) : List (String × Node) :=
  members.filterMap fun m => m.1.text.toOption.map (·, m.2)

theorem mem_named_iff {members : List (Literal × Node)} {k : String} {n : Node} :
    (k, n) ∈ named members ↔ ∃ l, (l, n) ∈ members ∧ l.text = .ok k := by
  simp [named, List.mem_filterMap, toOption_eq_some_iff]

variable {names : List String} {name : String} {n : Node} {ms : List (String × Node)}

theorem keyed_eq_withKeys_iff {members : List (Literal × Node)} : keyed members = withKeys ms ↔
    (∀ m ∈ members, ∃ k, m.1.text = .ok k) ∧ ms = named members := by
  induction members generalizing ms with
  | nil =>
    cases ms with
    | nil => simp [keyed, withKeys, named]
    | cons m ms => simp [keyed, withKeys, named]
  | cons member members ih =>
    obtain ⟨key, n⟩ := member
    cases hkey : key.text with
    | error f => cases ms <;> simp [keyed, withKeys, hkey]
    | ok k =>
      have hnamed : named ((key, n) :: members) = (k, n) :: named members := by
        simp [named, hkey, Except.toOption]
      cases ms with
      | nil => simp [keyed, withKeys, hnamed]
      | cons m ms =>
        have hcons : keyed ((key, n) :: members) = withKeys (m :: ms) ↔
            (k, n) = m ∧ keyed members = withKeys ms := by
          simp [keyed, withKeys, hkey, Prod.ext_iff]
        rw [hcons, ih, hnamed, List.forall_mem_cons, List.cons.injEq]
        simp only [hkey, Except.ok.injEq, exists_eq', true_and]
        tauto

/-- No field stands twice among the members. -/
def Once (names : List String) (ms : List (String × Node)) : Prop :=
  ((ms.filter (·.1 ∈ names)).map Prod.fst).Nodup

theorem Once.lookup_iff (h : Once names ms) (hname : name ∈ names) :
    ms.lookup name = some n ↔ (name, n) ∈ ms := by
  refine ⟨mem_of_lookup, fun hmem => ?_⟩
  have hfield : (name, n) ∈ ms.filter (·.1 ∈ names) :=
    List.mem_filter.2 ⟨hmem, decide_eq_true hname⟩
  rw [← lookup_filter (p := (· ∈ names)) (decide_eq_true hname), lookup_of_mem h hfield]

/-- The text of a string. -/
def Node.string? : Node → Option String
  | .text l => l.text.toOption
  | _ => none

/-- The first string that stands under a name. -/
def firstString? (name : String) (ms : List (String × Node)) : Option String :=
  ms.findSome? fun m => if m.1 = name then m.2.string? else none

theorem Once.firstString?_eq (h : Once names ms) (hname : name ∈ names) :
    firstString? name ms = (ms.lookup name).bind Node.string? := by
  induction ms with
  | nil => rfl
  | cons m ms ih =>
    obtain ⟨k, n⟩ := m
    rw [firstString?, List.findSome?_cons, ← firstString?, lookup_cons_eq_ite]
    by_cases hk : k = name
    · subst hk
      have hnone : firstString? k ms = none := by
        rw [Once, List.filter_cons_of_pos (by simpa using hname), List.map_cons,
          List.nodup_cons] at h
        refine List.findSome?_eq_none_iff.2 fun m hm => if_neg fun hkey => h.1 ?_
        exact List.mem_map.2 ⟨m, List.mem_filter.2 ⟨hm, by simpa [hkey] using hname⟩, hkey⟩
      rw [if_pos rfl, if_pos rfl, hnone, Option.bind_some]
      cases n.string? <;> rfl
    · have hrest : Once names ms :=
        List.Nodup.sublist (((List.sublist_cons_self _ _).filter _).map _) h
      rw [if_neg hk, if_neg (Ne.symm hk)]
      exact ih hrest

/-! ### Trees that are passed over -/

/-- A string that is read has an end. -/
theorem Literal.whole_of_bytes {pieces : List Piece} {cut : Option Cut} {bytes : Bytes}
    (h : Literal.bytes pieces cut = .ok bytes) : cut = none := by
  have hbind {e : Except Fault Bytes} {f : Bytes → Except Fault Bytes} {bytes : Bytes}
      (h : e >>= f = .ok bytes) : ∃ more, e = .ok more := by
    cases e with
    | error f => cases h
    | ok more => exact ⟨more, rfl⟩
  fun_induction Literal.bytes pieces cut generalizing bytes with
  | case1 => rfl
  | case3 _ _ _ ih | case7 _ _ _ _ _ _ _ ih | case9 _ _ _ _ _ ih =>
    obtain ⟨more, hmore⟩ := hbind h
    exact ih hmore
  | _ => cases h

theorem Literal.skip_of_text {l : Literal} {s : String} (h : l.text = .ok s) : l.skip = none := by
  cases hbytes : Literal.bytes l.pieces l.cut with
  | error f =>
    rw [Literal.text, hbytes] at h
    cases h
  | ok bytes => rw [Literal.skip, whole_of_bytes hbytes, Option.map_none]

theorem Node.skip_of_string? {s : String} (h : n.string? = some s) : n.skip = none := by
  cases n with
  | text l =>
    rw [Node.skip]
    cases hl : l.text with
    | ok s => exact Literal.skip_of_text hl
    | error f =>
      rw [Node.string?, hl] at h
      cases h
  | _ => cases h

theorem Node.skip_object_iff {members : List (Literal × Node)} :
    (Node.object members .closed).skip = none ↔
      ∀ m ∈ members, m.1.skip = none ∧ m.2.skip = none := by
  rw [Node.skip]
  induction members with
  | nil => exact iff_of_true rfl nofun
  | cons m members ih =>
    obtain ⟨key, n⟩ := m
    rw [Node.skipMembers, List.forall_mem_cons, ← ih]
    simp [Option.or_eq_none_iff]

/-! ### Objects -/

/-- Members that are gone through without a problem. -/
structure Clean (names : List String) (ms : List (String × Node)) : Prop where
  once : Once names ms
  skips : ∀ m ∈ ms, m.1 ∉ names → m.2.skip = none

theorem Clean.cons_field {k : String} (hk : k ∈ names) : Clean names ((k, n) :: ms) ↔
    Clean names ms ∧ ∀ m ∈ ms, m.1 ∈ names → m.1 ≠ k := by
  have honce : Once names ((k, n) :: ms) ↔ Once names ms ∧ ∀ m ∈ ms, m.1 ∈ names → m.1 ≠ k := by
    rw [Once, List.filter_cons_of_pos (by simpa using hk), List.map_cons, List.nodup_cons,
      and_comm]
    refine and_congr_right fun _ => ?_
    simp only [List.mem_map, List.mem_filter, decide_eq_true_eq, not_exists, not_and]
    grind
  constructor
  · rintro ⟨h, hskips⟩
    exact ⟨⟨(honce.1 h).1, fun m hm => hskips m (List.mem_cons_of_mem _ hm)⟩, (honce.1 h).2⟩
  · rintro ⟨⟨h, hskips⟩, hfresh⟩
    refine ⟨honce.2 ⟨h, hfresh⟩, List.forall_mem_cons.2 ⟨fun hne => absurd hk hne, hskips⟩⟩

theorem Clean.cons_other {k : String} (hk : k ∉ names) : Clean names ((k, n) :: ms) ↔
    n.skip = none ∧ Clean names ms := by
  have honce : Once names ((k, n) :: ms) ↔ Once names ms := by
    rw [Once, List.filter_cons_of_neg (by simpa using hk), Once]
  constructor
  · rintro ⟨h, hskips⟩
    obtain ⟨hn, hrest⟩ := List.forall_mem_cons.1 hskips
    exact ⟨hn hk, honce.1 h, hrest⟩
  · rintro ⟨hn, h, hskips⟩
    exact ⟨honce.2 h, List.forall_mem_cons.2 ⟨fun _ => hn, hskips⟩⟩

theorem scan_skipped_iff {levels place : Nat} {seen : List String} {ms : List (String × Node)} :
    (∃ kept, scan names .skipped levels .closed place seen (withKeys ms) = .ok kept) ↔
      Clean names ms ∧ ∀ m ∈ ms, m.1 ∈ names → m.1 ∉ seen := by
  induction ms generalizing place seen with
  | nil =>
    exact iff_of_true ⟨[], rfl⟩ ⟨⟨.nil, List.forall_mem_nil _⟩, List.forall_mem_nil _⟩
  | cons m ms ih =>
    obtain ⟨k, n⟩ := m
    rw [withKeys, List.map_cons, ← withKeys, scan, List.forall_mem_cons]
    by_cases hk : k ∈ names
    · rw [if_pos hk, Clean.cons_field hk]
      by_cases hseen : k ∈ seen
      · rw [if_pos hseen]
        refine iff_of_false ?_ fun h => h.2.1 hk hseen
        rintro ⟨_, ⟨⟩⟩
      · rw [if_neg hseen, ih]
        simp only [List.mem_cons, not_or]
        grind
    · rw [if_neg hk, Clean.cons_other hk]
      cases hskip : n.skip with
      | some f =>
        have hothers : Others.skipped levels k n = .error f := by rw [Others.skipped, hskip]; rfl
        rw [hothers]
        refine iff_of_false ?_ fun h => Option.some_ne_none f h.1.1
        rintro ⟨_, ⟨⟩⟩
      | none =>
        have hothers : Others.skipped levels k n = .ok [] := by rw [Others.skipped, hskip]; rfl
        rw [hothers]
        have hmap (r : Reading (List Empty)) :
            (∃ kept, r.map ([] ++ ·) = .ok kept) ↔ ∃ kept, r = .ok kept := by
          cases r <;> simp [Reading.map]
        simp only [hmap, ih, hk, false_implies, true_and]

section

variable {α σ β : Type} {levels : Nat} {label : String}

/-- An object is read as a record where it is gone through without a problem and its fields are
read. -/
theorem Shape.record_object_iff {s : Shape α α} {members : List (Literal × Node)}
    {tail : ObjectEnd} {a : α} :
    (s.record label).decode (levels + 1) (.object members tail) = .ok a ↔
      tail = .closed ∧ (∀ m ∈ members, ∃ k, m.1.text = .ok k) ∧ Clean s.names (named members) ∧
        s.read levels (s.describe label) (.object (withKeys (named members))) = .ok a := by
  change (((s.readObject label .skipped levels (keyed members) tail).map Prod.fst).toExcept = _) ↔ _
  rw [Reading.toExcept_eq_ok_iff, Reading.map_eq_ok_iff]
  constructor
  · rintro ⟨⟨_, kept⟩, hread, rfl⟩
    obtain ⟨hscan, hfields⟩ := readObject_eq_ok hread
    obtain ⟨rfl, ms, hms⟩ := closed_of_scan hscan
    obtain ⟨hkeys, rfl⟩ := keyed_eq_withKeys_iff.1 hms
    rw [hms] at hscan hfields
    exact ⟨rfl, hkeys, (scan_skipped_iff.1 ⟨kept, hscan⟩).1, hfields⟩
  · rintro ⟨rfl, hkeys, hclean, hfields⟩
    obtain ⟨kept, hscan⟩ : ∃ kept, scan s.names .skipped levels .closed 0 []
        (withKeys (named members)) = .ok kept :=
      scan_skipped_iff.2 ⟨hclean, fun _ _ _ => List.not_mem_nil⟩
    refine ⟨(a, kept), ?_, rfl⟩
    rw [keyed_eq_withKeys_iff.2 ⟨hkeys, rfl⟩, readObject, hscan, hfields]
    rfl

/-- An array is read as a record where it has no more items than there are fields. -/
theorem Shape.record_array_iff {s : Shape α α} {items : List Node} {tail : ArrayEnd} {a : α} :
    (s.record label).decode (levels + 1) (.array items tail) = .ok a ↔
      tail = .closed ∧ items.length ≤ s.names.length ∧
        s.read levels (s.describe label) (.array items .closed) = .ok a := by
  change (((s.read levels (s.describe label) (.array items tail)).map fun a () => a).both
    (leftover s.names.length items tail)).toExcept = _ ↔ _
  rw [Reading.toExcept_eq_ok_iff, Reading.both_eq_ok_iff]
  simp only [Reading.map_eq_ok_iff]
  have hleftover : leftover s.names.length items tail = .ok () ↔
      tail = .closed ∧ items.length ≤ s.names.length := by
    rw [leftover.eq_def]
    by_cases hlength : s.names.length < items.length
    · rw [if_pos hlength]
      exact iff_of_false nofun fun h => Nat.not_le_of_lt hlength h.2
    · rw [if_neg hlength]
      cases tail with
      | closed => exact iff_of_true rfl ⟨rfl, Nat.le_of_not_lt hlength⟩
      | _ => exact iff_of_false nofun nofun
  constructor
  · rintro ⟨f, ⟨⟩, ⟨a, hfields, rfl⟩, hend, rfl⟩
    obtain ⟨rfl, hlength⟩ := hleftover.1 hend
    exact ⟨rfl, hlength, hfields⟩
  · rintro ⟨rfl, hlength, hfields⟩
    exact ⟨fun () => a, (), ⟨a, hfields, rfl⟩, hleftover.2 ⟨rfl, hlength⟩, rfl⟩

theorem Shape.read_and_iff {s : Shape σ (α → β)} {get : σ → α} {f : Field α} {whole : String}
    {source : Source} {b : β} : (s.and get f).read levels whole source = .ok b ↔
      ∃ g a, s.read levels whole source = .ok g ∧
        f.read levels whole s.names.length source = .ok a ∧ b = g a :=
  Reading.both_eq_ok_iff

/-! ### Fields -/

/-- What is found in the place of a field, if anything is. -/
inductive Slot.Holds : Slot → Option Node → Prop where
  | present (place : Nat) (n : Node) : Slot.Holds (.present place n) (some n)
  | missing (place : Nat) : Slot.Holds (.missing place) none
  | ended (place : Nat) : Slot.Holds (.ended place) none

theorem findMember_holds (name : String) (place : Nat) (ms : List (String × Node)) :
    (findMember name place (withKeys ms)).Holds (ms.lookup name) := by
  induction ms generalizing place with
  | nil => exact .missing (place + 1)
  | cons m ms ih =>
    obtain ⟨k, n⟩ := m
    rw [withKeys, List.map_cons, ← withKeys, findMember, lookup_cons_eq_ite]
    by_cases hk : k = name
    · rw [if_pos hk, if_pos hk.symm]
      exact .present place n
    · rw [if_neg hk, if_neg (Ne.symm hk)]
      exact ih (place + 1)

theorem find_object_holds (index : Nat) (name : String) (ms : List (String × Node)) :
    ((Source.object (withKeys ms)).find index name).Holds (ms.lookup name) :=
  findMember_holds name 0 ms

theorem find_array_holds (index : Nat) (name : String) (items : List Node) :
    ((Source.array items .closed).find index name).Holds items[index]? := by
  rw [Source.find]
  cases items[index]? with
  | some n => exact .present index n
  | none => exact .ended index

/-- An option is read from what stands in its place, `null` or nothing at all for none. -/
def optionFrom (c : Codec α) (levels : Nat) : Option Node → Except Problem (Option α)
  | none => .ok none
  | some n => (optional c).decode levels n

theorem Field.read_nullable_iff {c : Codec α} {whole : String} {index : Nat} {source : Source}
    {found : Option Node} {o : Option α} (h : (source.find index name).Holds found) :
    (nullable name c).read levels whole index source = .ok o ↔
      optionFrom c levels found = .ok o := by
  rw [read]
  change (source.find index (nullable name c).name).Holds found at h
  generalize source.find index (nullable name c).name = slot at h ⊢
  cases h with
  | present place n => exact Reading.ofExcept_eq_ok_iff
  | missing place => simp [nullable, optionFrom]
  | ended place => simp [nullable, optionFrom]

theorem optional_decode_iff {c : Codec α} {o : Option α}
    (hbroken : ∀ b, ¬ ∃ a, c.decode levels (.broken b) = .ok a) :
    (optional c).decode levels n = .ok o ↔
      (n = .null ∧ o = none) ∨ (n ≠ .null ∧ ∃ a, c.decode levels n = .ok a ∧ o = some a) := by
  have hmap {e : Except Problem α} : e.map some = .ok o ↔ ∃ a, e = .ok a ∧ o = some a := by
    cases e <;> simp [Except.map, eq_comm]
  cases n with
  | null => simp [optional, eq_comm]
  | broken b =>
    have hnone : (optional c).decode levels (.broken b) ≠ .ok o := by
      intro h
      unfold optional at h
      dsimp only at h
      split at h
      · contradiction
      · cases h
      · obtain ⟨a, ha, _⟩ := hmap.1 h
        exact hbroken b ⟨a, ha⟩
    refine iff_of_false hnone ?_
    rintro (⟨hnull, _⟩ | ⟨_, a, ha, _⟩)
    · cases hnull
    · exact hbroken b ⟨a, ha⟩
  | _ => exact hmap.trans ⟨fun h => .inr ⟨nofun, h⟩, fun h => h.resolve_left nofun |>.2⟩

theorem string_decode_iff {s : String} : string.decode levels n = .ok s ↔ n.string? = some s := by
  cases n with
  | text l =>
    change l.text.mapError Problem.notJson = .ok s ↔ l.text.toOption = some s
    cases l.text <;> simp [Except.mapError, Except.toOption]
  | _ => constructor <;> rintro ⟨⟩

theorem optionFrom_string_iff {found : Option Node} {o : Option String} :
    optionFrom string levels found = .ok o ↔
      (∀ n ∈ found, n = .null ∨ n.string?.isSome) ∧ o = found.bind Node.string? := by
  cases found with
  | none =>
    constructor
    · rintro ⟨⟩
      exact ⟨nofun, rfl⟩
    · rintro ⟨_, rfl⟩
      rfl
  | some n =>
    have hbroken (b : Break) : ¬ ∃ s, string.decode levels (.broken b) = .ok s := nofun
    rw [optionFrom, optional_decode_iff hbroken]
    simp only [string_decode_iff, Option.mem_some_iff, forall_eq', Option.bind_some,
      Option.isSome_iff_exists]
    constructor
    · rintro (⟨rfl, rfl⟩ | ⟨_, s, hs, rfl⟩)
      · exact ⟨.inl rfl, rfl⟩
      · exact ⟨.inr ⟨s, hs⟩, hs.symm⟩
    · rintro ⟨rfl | ⟨s, hs⟩, rfl⟩
      · exact .inl ⟨rfl, rfl⟩
      · refine .inr ⟨?_, s, hs, hs⟩
        rintro rfl
        cases hs

/-- A whole number below `bound`. -/
def Node.IsBelow (bound : Nat) (n : Node) : Prop :=
  ∃ k i, n = .number k ∧ k.value = .ok (.int i) ∧ 0 ≤ i.val ∧ i.val < bound

theorem exists_decodeBelow_iff {bound : Nat} {expected : String} :
    (∃ k, decodeBelow bound expected n = .ok k) ↔ n.IsBelow bound := by
  constructor
  · rintro ⟨k, h⟩
    cases n with
    | number m =>
      rw [decodeBelow] at h
      split at h
      case h_1 i hvalue =>
        split at h
        case isTrue hi => exact ⟨m, i, rfl, hvalue, hi⟩
        case isFalse => cases h
      case h_2 => cases h
    | _ => cases h
  · rintro ⟨k, i, rfl, hvalue, hi⟩
    rw [decodeBelow, hvalue]
    dsimp only
    rw [if_pos hi]
    exact ⟨_, rfl⟩

theorem exists_optionFrom_uint16_iff {found : Option Node} :
    (∃ o, optionFrom uint16 levels found = .ok o) ↔
      ∀ n ∈ found, n = .null ∨ n.IsBelow (2 ^ 16) := by
  have hdecode {n : Node} : (∃ a, uint16.decode levels n = .ok a) ↔ n.IsBelow (2 ^ 16) := by
    rw [← exists_decodeBelow_iff]
    change (∃ a, (decodeBelow (2 ^ 16) "u16" n).map UInt16.ofNat = .ok a) ↔ _
    cases decodeBelow (2 ^ 16) "u16" n <;> simp [Except.map]
  cases found with
  | none => exact iff_of_true ⟨none, rfl⟩ nofun
  | some n =>
    have hbroken (b : Break) : ¬ ∃ a, uint16.decode levels (.broken b) = .ok a := by
      rw [hdecode]
      rintro ⟨k, i, hk, _⟩
      cases hk
    simp only [optionFrom, optional_decode_iff hbroken, Option.mem_some_iff, forall_eq', ← hdecode]
    constructor
    · rintro ⟨o, ⟨rfl, _⟩ | ⟨_, a, ha, _⟩⟩
      · exact .inl rfl
      · exact .inr ⟨a, ha⟩
    · rintro (rfl | ⟨a, ha⟩)
      · exact ⟨none, .inl ⟨rfl, rfl⟩⟩
      · refine ⟨some a, .inr ⟨?_, a, ha, rfl⟩⟩
        rintro rfl
        cases ha

end

end CloudClient.Json
