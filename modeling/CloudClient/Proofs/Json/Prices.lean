import CloudClient.Proofs.Json.Accepted
import CloudClient.Proofs.Json.Returned

/-!
Amounts of money in records. A number is finite whenever it is read; a text may name an infinity, or
no number at all, or one that is too large.
-/

namespace CloudClient.Json

variable {α β σ : Type} {levels : Nat} {n : Node} {x : Binary64}

/-! ### Amounts -/

/-- A string that is read as a number, if at all, but as none that is finite. -/
def Node.Boundless (n : Node) : Prop :=
  ∃ s, n.string? = some s ∧ Binary64.Boundless (Text.trim s)

theorem decode_price_of_str {s : String} (h : n.value levels = .ok (.str s)) :
    price.decode levels n = (Binary64.parse (Text.trim s)).mapError Problem.numeral := by
  simp only [price, h, Except.mapError, bind, Except.bind]

theorem isFinite_price_iff (h : price.decode levels n = .ok x) :
    x.isFinite = true ↔ ¬ n.Boundless := by
  cases hvalue : n.value levels with
  | error f =>
    simp only [price, hvalue] at h
    cases h
  | ok j =>
    cases j with
    | number m =>
      simp only [price, hvalue] at h
      cases h
      obtain ⟨k, rfl, hk⟩ := exists_of_value hvalue
      exact iff_of_true (Numeral.isFinite_of_value hk) nofun
    | str s =>
      obtain ⟨l, rfl, hl⟩ := exists_text_of_value hvalue
      have hstring : (Node.text l).string? = some s := by
        rw [Node.string?, hl]
        rfl
      rw [decode_price_of_str hvalue] at h
      cases hparse : Binary64.parse (Text.trim s) with
      | error f =>
        rw [hparse] at h
        cases h
      | ok y =>
        rw [hparse] at h
        cases h
        rw [Binary64.isFinite_parse_iff hparse, Node.Boundless, hstring]
        simp
    | _ =>
      simp only [price, hvalue] at h
      cases h

/-! ### Fields -/

/-- The values are finite unless a text in the place of the field is not. -/
def Agrees (value? : Option Binary64) (found : Option Node) : Prop :=
  (∀ x ∈ value?, x.isFinite = true) ↔ ∀ n ∈ found, ¬ n.Boundless

/-- Whatever the field is read from, its values agree with that. -/
def Field.Priced (f : Field α) (value? : α → Option Binary64) : Prop :=
  ∀ ⦃levels whole index source found a⦄, (Source.find index f.name source).Holds found →
    f.read levels whole index source = .ok a → Agrees (value? a) found

theorem agrees_of_none {value? : Option Binary64} (h : ∀ x ∈ value?, x.isFinite = true) :
    Agrees value? none :=
  iff_of_true h (by simp)

namespace Field

variable {name : String}

theorem priced_of {f : Field α} {value? : α → Option Binary64}
    (hcodec : ∀ levels n a, f.codec.decode levels n = .ok a → Agrees (value? a) (some n))
    (habsent : ∀ a, f.absent = some a ∨ f.absentLast = some a →
      ∀ x ∈ value? a, x.isFinite = true) : f.Priced value? := by
  intro levels whole index source found a hfound hread
  rw [read] at hread
  generalize source.find index f.name = slot at hfound hread
  cases hfound with
  | present place n => exact hcodec levels n a (Reading.ofExcept_eq_ok_iff.1 hread)
  | missing place =>
    cases hvalue : f.absent <;> simp only [hvalue] at hread <;> cases hread
    exact agrees_of_none (habsent _ (.inl hvalue))
  | ended place =>
    cases hvalue : f.absentLast <;> simp only [hvalue] at hread <;> cases hread
    exact agrees_of_none (habsent _ (.inr hvalue))

theorem agrees_of_price (h : price.decode levels n = .ok x) : Agrees (some x) (some n) := by
  simp [Agrees, isFinite_price_iff h]

theorem required_priced : (required name price).Priced some :=
  priced_of (fun _ _ _ => agrees_of_price) (by rintro a (⟨⟨⟩⟩ | ⟨⟨⟩⟩))

theorem defaulted_priced (hx : x.isFinite = true) : (defaulted name price x).Priced some :=
  priced_of (fun _ _ _ => agrees_of_price) (by rintro a (⟨⟨⟩⟩ | ⟨⟨⟩⟩) <;> simpa using hx)

theorem nullable_priced : (nullable name price).Priced id := by
  refine priced_of (fun levels n o h => ?_) (by rintro a (⟨⟨⟩⟩ | ⟨⟨⟩⟩) <;> nofun)
  have hbroken (b : Break) : ¬ ∃ x, price.decode levels (.broken b) = .ok x := nofun
  rcases (optional_decode_iff hbroken).1 h with ⟨rfl, rfl⟩ | ⟨_, x, hx, rfl⟩
  · exact iff_of_true nofun (by rintro _ ⟨⟩ ⟨_, ⟨⟩, _⟩)
  · exact agrees_of_price hx

end Field

/-! ### Shapes -/

namespace Shape

/-- Whatever is read of the fields goes with what they are read from. -/
def Yields (s : Shape σ β) (P : Source → β → Prop) : Prop :=
  ∀ levels whole source b, s.read levels whole source = .ok b → P source b

theorem Yields.of {b : β} {P : Source → β → Prop} (h : ∀ source, P source b) :
    (Shape.of σ b).Yields P := by
  rintro levels whole source _ ⟨⟩
  exact h source

theorem Yields.and {s : Shape σ (α → β)} {get : σ → α} {f : Field α} {P : Source → β → Prop}
    (h : s.Yields fun source g => ∀ a, P source (g a)) : (s.and get f).Yields P := by
  intro levels whole source b hb
  obtain ⟨g, a, hg, _, rfl⟩ := read_and_iff.1 hb
  exact h levels whole source g hg a

/-- A field of which more is known. -/
theorem Yields.price {s : Shape σ (α → β)} {get : σ → α} {f : Field α}
    {value? : α → Option Binary64} {P : Source → β → Prop} (hf : f.Priced value?)
    (h : s.Yields fun source g => ∀ a,
      (∀ ⦃found⦄, (source.find s.names.length f.name).Holds found → Agrees (value? a) found) →
      P source (g a)) : (s.and get f).Yields P := by
  intro levels whole source b hb
  obtain ⟨g, a, hg, ha, rfl⟩ := read_and_iff.1 hb
  exact h levels whole source g hg a fun _ hfound => hf hfound ha

end Shape

/-! ### Records -/

/-- A price of a record and its place: a name in an object, an index in an array. -/
structure Price (α : Type) where
  index : Nat
  name : String
  value? : α → Option Binary64

/-- What stands in the place of a field. -/
def Node.field? (index : Nat) (name : String) : Node → Option Node
  | .object members _ => (named members).lookup name
  | .array items _ => items[index]?
  | _ => none

namespace Price

def Finite (p : Price α) (a : α) : Prop :=
  ∀ x ∈ p.value? a, x.isFinite = true

/-- The price goes with what stands in its place. -/
def Goes (p : Price α) (source : Source) (a : α) : Prop :=
  ∀ ⦃found⦄, (source.find p.index p.name).Holds found → Agrees (p.value? a) found

end Price

/-- Prices are read as finite numbers, unless what is read is a text that stands for none. They are
written as numbers where they are finite; and where all of them are, the record is read again. -/
def Codec.Priced (c : Codec α) (prices : List (Price α)) : Prop :=
  ∀ bytes a, c.read bytes = .ok a →
    (∀ p ∈ prices, p.Finite a ↔
      ∀ n ∈ (Json.read bytes).1.field? p.index p.name, ¬ n.Boundless) ∧
    ∃ root, Json.read (c.write a) = (root, false) ∧
      (∀ p ∈ prices, ∀ x ∈ p.value? a,
        (∃ k, root.field? p.index p.name = some (.number k)) ↔ x.isFinite = true) ∧
      ((∀ p ∈ prices, p.Finite a) → ∃ b, c.read (c.write a) = .ok b)

/-- The fields of a shape are all written, the prices among them, and are read again where the
prices are finite. -/
structure Shape.HasPrices (s : Shape α β) (prices : List (Price α)) : Prop where
  names : s.names.Nodup
  keys : ∀ a, (s.write a).map Prod.fst = s.names
  written : ∀ a, ∀ p ∈ prices, ∀ x ∈ p.value? a, (p.name, price.encode x) ∈ s.write a
  returns : ∀ a, (∀ p ∈ prices, p.Finite a) → s.Returns 126 a

variable {p : Price α} {prices : List (Price α)} {a : α} {label : String}

theorem named_of_denotes {ns : List (Literal × Node)} {ms : List (String × Json)}
    (h : Node.MembersDenote ns ms) : keyed ns = withKeys (named ns) := by
  refine keyed_eq_withKeys_iff.2 ⟨?_, rfl⟩
  induction ms generalizing ns with
  | nil =>
    obtain rfl : ns = [] := h
    nofun
  | cons m rest ih =>
    obtain ⟨l, n, ns', rfl, hl, _, hrest⟩ := h
    exact List.forall_mem_cons.2 ⟨⟨m.1, hl.text⟩, ih hrest⟩

/-- What stands under a name in a tree stands for what it is the name of. -/
theorem exists_field?_of_denotes {ms : List (String × Json)} {name : String} {j : Json}
    (h : n.Denotes (.obj ms)) (hj : ms.lookup name = some j) (index : Nat) :
    ∃ m, n.field? index name = some m ∧ m.Denotes j := by
  obtain ⟨ns, rfl, hns⟩ := h
  have hshows := hns.shown.findMember name 0
  rw [named_of_denotes hns, hj] at hshows
  have hholds := findMember_holds name 0 (named ns)
  change ∃ m, (named ns).lookup name = some m ∧ _
  generalize findMember name 0 (withKeys (named ns)) = slot at hshows hholds
  generalize (named ns).lookup name = found at hholds
  cases hshows with
  | present place hn =>
    cases hholds
    exact ⟨_, rfl, hn⟩

theorem isNumber_iff_of_denotes (h : n.Denotes x.reread) :
    (∃ k, n = .number k) ↔ x.isFinite = true := by
  cases hx : x.isFinite with
  | true =>
    obtain ⟨_, m, hm, _⟩ := exists_reread hx
    rw [hm] at h
    obtain ⟨k, rfl, _⟩ := h
    exact iff_of_true ⟨k, rfl⟩ rfl
  | false =>
    rw [reread_of_not_isFinite hx] at h
    obtain rfl : n = .null := h
    exact iff_of_false nofun nofun

theorem Shape.HasPrices.isNumber_iff {s : Shape α β} {rest : List (String × Json)}
    (h : s.HasPrices prices) (hkeys : (s.names ++ rest.map Prod.fst).Nodup)
    (hn : n.Denotes (Json.obj (s.write a ++ rest)).reread) (hp : p ∈ prices)
    (hx : x ∈ p.value? a) :
    (∃ k, n.field? p.index p.name = some (.number k)) ↔ x.isFinite = true := by
  have hnodup : ((rereadMembers (s.write a ++ rest)).map Prod.fst).Nodup := by
    rw [keys_rereadMembers, List.map_append, h.keys]
    exact hkeys
  have hreread : (ofBinary64 x).reread = x.reread := by
    rw [ofBinary64, reread]
  have hmem : (p.name, x.reread) ∈ rereadMembers (s.write a ++ rest) := by
    rw [rereadMembers_eq_map, ← hreread]
    exact List.mem_map_of_mem (f := fun m : String × Json => (m.1, m.2.reread))
      (List.mem_append_left _ (h.written a p hp x hx))
  have hlookup : (rereadMembers (s.write a ++ rest)).lookup p.name = some x.reread :=
    lookup_of_mem hnodup hmem
  rw [reread] at hn
  obtain ⟨m, hm, hdenotes⟩ := exists_field?_of_denotes hn hlookup p.index
  rw [← isNumber_iff_of_denotes hdenotes, hm]
  exact exists_congr fun _ => Option.some_inj

/-! ### Records without other members -/

theorem finite_iff_of_record {s : Shape α α}
    (h : s.Yields fun source a => ∀ p ∈ prices, p.Goes source a)
    (hdecode : (s.record label).decode levels n = .ok a) (hp : p ∈ prices) :
    p.Finite a ↔ ∀ m ∈ n.field? p.index p.name, ¬ m.Boundless := by
  cases n with
  | object members tail =>
    cases levels with
    | zero => cases hdecode
    | succ levels =>
      obtain ⟨_, _, _, hread⟩ := Shape.record_object_iff.1 hdecode
      exact h _ _ _ _ hread p hp (find_object_holds ..)
  | array items tail =>
    cases levels with
    | zero => cases hdecode
    | succ levels =>
      obtain ⟨_, _, hread⟩ := Shape.record_array_iff.1 hdecode
      exact h _ _ _ _ hread p hp (find_array_holds ..)
  | _ => cases hdecode

theorem Shape.HasPrices.record {s : Shape α α} (h : s.HasPrices prices)
    (hyields : s.Yields fun source a => ∀ p ∈ prices, p.Goes source a) (label : String) :
    (s.record label).Priced prices := by
  intro bytes a hread
  obtain ⟨hdecode, _⟩ := Codec.read_eq_ok_iff.1 hread
  obtain ⟨root, hroot, hn⟩ := exists_read_encode ((s.record label).encode a)
  have hwrite : (s.record label).encode a = .obj (s.write a ++ []) := by
    rw [List.append_nil]
    rfl
  rw [hwrite] at hn
  have hkeys : (s.names ++ ([] : List (String × Json)).map Prod.fst).Nodup := by
    rw [List.map_nil, List.append_nil]
    exact h.names
  exact ⟨fun p hp => finite_iff_of_record hyields hdecode hp, root, hroot,
    fun p hp x hx => h.isNumber_iff hkeys hn hp hx,
    fun hfinite => ((h.returns a hfinite).record h.names label).exists_read⟩

/-! ### Records with other members -/

theorem exists_read_of_openRecord {s : Shape α (List (String × Json) → α)}
    {others : α → List (String × Json)} (h : (s.openRecord label others).decode levels n = .ok a) :
    ∃ inner members f kept, levels = inner + 1 ∧ n = .object members .closed ∧
      s.read inner (s.describe label) (.object (withKeys (named members))) = .ok f ∧
      a = f kept := by
  cases n with
  | object members tail =>
    cases levels with
    | zero => cases h
    | succ inner =>
      change (Reading.map _
        (s.readObject label .values inner (keyed members) tail)).toExcept = _ at h
      rw [Reading.toExcept_eq_ok_iff, Reading.map_eq_ok_iff] at h
      obtain ⟨⟨f, kept⟩, hread, rfl⟩ := h
      obtain ⟨hscan, hfields⟩ := Shape.readObject_eq_ok hread
      obtain ⟨rfl, ms, hms⟩ := closed_of_scan hscan
      obtain ⟨_, rfl⟩ := keyed_eq_withKeys_iff.1 hms
      rw [hms] at hfields
      exact ⟨inner, members, f, collect kept, rfl, rfl, hfields, rfl⟩
  | _ => cases h

theorem finite_iff_of_openRecord {s : Shape α (List (String × Json) → α)}
    {others : α → List (String × Json)}
    (h : s.Yields fun source f => ∀ kept, ∀ p ∈ prices, p.Goes source (f kept))
    (hdecode : (s.openRecord label others).decode levels n = .ok a) (hp : p ∈ prices) :
    p.Finite a ↔ ∀ m ∈ n.field? p.index p.name, ¬ m.Boundless := by
  obtain ⟨inner, members, f, kept, rfl, rfl, hread, rfl⟩ := exists_read_of_openRecord hdecode
  exact h _ _ _ _ hread kept p hp (find_object_holds ..)

theorem Kept.depth_le {names : List String} {members : List (String × Node)}
    {kept : List (String × Json)} (h : Kept names levels members kept) :
    ∀ m ∈ kept, m.2.depth ≤ levels := by
  intro m hm
  obtain ⟨_, n, _, _, _, hdecode⟩ := h.last m hm
  change ((n.value levels).mapError Problem.notJson).map sorted = _ at hdecode
  cases hvalue : n.value levels with
  | error f =>
    rw [hvalue] at hdecode
    cases hdecode
  | ok j =>
    rw [hvalue] at hdecode
    have hm : j.sorted = m.2 := Except.ok.inj hdecode
    exact hm ▸ Nat.le_trans (depth_sorted_le j) (depth_le_of_value n hvalue)

theorem Kept.nodup {names : List String} {members : List (String × Node)}
    {kept : List (String × Json)} (h : Kept names levels members kept) (hnames : names.Nodup) :
    (names ++ kept.map Prod.fst).Nodup := by
  refine List.nodup_append.2 ⟨hnames, h.distinct, ?_⟩
  rintro name hname _ hkey rfl
  exact ((h.keys name).1 hkey).2 hname

theorem Shape.HasPrices.openRecord {s : Shape α (List (String × Json) → α)}
    {others : α → List (String × Json)} (h : s.HasPrices prices)
    (hmakes : s.Makes fun f => ∀ kept, others (f kept) = kept)
    (hyields : s.Yields fun source f => ∀ kept, ∀ p ∈ prices, p.Goes source (f kept))
    (label : String) : (s.openRecord label others).Priced prices := by
  intro bytes a hread
  obtain ⟨hdecode, _⟩ := Codec.read_eq_ok_iff.1 hread
  obtain ⟨root, hroot, hn⟩ := exists_read_encode ((s.openRecord label others).encode a)
  obtain ⟨⟨inner, _, members, hinner, _, _, hkept⟩, _⟩ :=
    keepsOthers_openRecord h.names hmakes _ _ _ hdecode
  obtain rfl : 126 = inner := Nat.succ.inj hinner
  have hkeys := hkept.nodup h.names
  exact ⟨fun p hp => finite_iff_of_openRecord hyields hdecode hp, root, hroot,
    fun p hp x hx => h.isNumber_iff hkeys hn hp hx,
    fun hfinite => ((h.returns a hfinite).openRecord hkeys hkept.depth_le label).exists_read⟩

end CloudClient.Json
