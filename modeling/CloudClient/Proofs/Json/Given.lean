import CloudClient.Proofs.Json.Shapes

/-!
Objects of the fields that are given. What is not given is left out, at every depth, and so `null`
is written nowhere.
-/

namespace CloudClient.Json

/-- The members for the fields that are given. -/
def given (fields : List (String × Option Json)) : List (String × Json) :=
  fields.flatMap fun f => (f.2.map fun j => (f.1, j)).toList

section

variable {k : String} {j : Json} {o : Option Json} {fields : List (String × Option Json)}

theorem mem_given_iff : (k, j) ∈ given fields ↔ (k, some j) ∈ fields := by
  simp [given, List.mem_flatMap]

theorem keys_given_sublist (fields : List (String × Option Json)) :
    ((given fields).map Prod.fst).Sublist (fields.map Prod.fst) := by
  induction fields with
  | nil => exact .slnil
  | cons f fields ih =>
    obtain ⟨k, o⟩ := f
    cases o with
    | none => exact ih.cons k
    | some j => exact ih.cons_cons k

end

/-! ### What is written -/

@[simp] theorem encode_string : string.encode = Json.str :=
  rfl

@[simp] theorem encode_boolean : boolean.encode = Json.bool :=
  rfl

@[simp] theorem encode_uint16 : uint16.encode = ofUInt16 :=
  rfl

@[simp] theorem encode_uint32 : uint32.encode = ofUInt32 :=
  rfl

@[simp] theorem encode_float : float.encode = ofBinary64 :=
  rfl

@[simp] theorem encode_choice {α : Type} (c : Choice α) (a : α) :
    c.codec.encode a = .str (c.name a) :=
  rfl

@[simp] theorem encode_record {α : Type} (s : Shape α α) (label : String) (a : α) :
    (s.record label).encode a = .obj (s.write a) :=
  rfl

/-! ### Values without null -/

mutual

/-- The value has no `null` in it, nor a number that is written `null`. -/
def NullFree : Json → Prop
  | .null => False
  | .number (.float x) => x.isFinite = true
  | .arr items => ItemsNullFree items
  | .obj members => MembersNullFree members
  | _ => True

def ItemsNullFree : List Json → Prop
  | [] => True
  | j :: rest => NullFree j ∧ ItemsNullFree rest

def MembersNullFree : List (String × Json) → Prop
  | [] => True
  | (_, j) :: rest => NullFree j ∧ MembersNullFree rest

end

mutual

/-- Nothing in the tree was read from `null`. -/
def Node.NullFree : Node → Prop
  | .null => False
  | .array items _ => Node.ItemsNullFree items
  | .object members _ => Node.MembersNullFree members
  | _ => True

def Node.ItemsNullFree : List Node → Prop
  | [] => True
  | n :: rest => Node.NullFree n ∧ Node.ItemsNullFree rest

def Node.MembersNullFree : List (Literal × Node) → Prop
  | [] => True
  | (_, n) :: rest => Node.NullFree n ∧ Node.MembersNullFree rest

end

mutual

theorem nullFree_of_denotes {n : Node} : (j : Json) → n.Denotes j.reread → j.NullFree → n.NullFree
  | .null, _, h => h.elim
  | .bool b, hn, _ => by
    obtain rfl : n = .bool b := hn
    trivial
  | .number (.int i), hn, _ => by
    obtain ⟨k, rfl, _⟩ := hn
    trivial
  | .number (.float x), hn, h => by
    obtain ⟨_, m, hm, _⟩ := exists_reread (show x.isFinite = true from h)
    rw [reread, hm] at hn
    obtain ⟨k, rfl, _⟩ := hn
    trivial
  | .str s, hn, _ => by
    obtain ⟨l, rfl, _⟩ := hn
    trivial
  | .arr items, hn, h => by
    obtain ⟨ns, rfl, hns⟩ := hn
    exact itemsNullFree_of_denote items hns h
  | .obj members, hn, h => by
    obtain ⟨ns, rfl, hns⟩ := hn
    exact membersNullFree_of_denote members hns h

theorem itemsNullFree_of_denote {ns : List Node} : (items : List Json) →
    Node.ItemsDenote ns (rereadItems items) → ItemsNullFree items → Node.ItemsNullFree ns
  | [], hns, _ => by
    obtain rfl : ns = [] := hns
    trivial
  | j :: rest, hns, h => by
    obtain ⟨n, ns', rfl, hn, hrest⟩ := hns
    exact ⟨nullFree_of_denotes j hn h.1, itemsNullFree_of_denote rest hrest h.2⟩

theorem membersNullFree_of_denote {ns : List (Literal × Node)} :
    (members : List (String × Json)) → Node.MembersDenote ns (rereadMembers members) →
    MembersNullFree members → Node.MembersNullFree ns
  | [], hns, _ => by
    obtain rfl : ns = [] := hns
    trivial
  | (k, j) :: rest, hns, h => by
    obtain ⟨l, n, ns', rfl, _, hn, hrest⟩ := hns
    exact ⟨nullFree_of_denotes j hn h.1, membersNullFree_of_denote rest hrest h.2⟩

end

section

variable {items : List Json} {members : List (String × Json)}
  {fields : List (String × Option Json)}

@[simp] theorem nullFree_bool (b : Bool) : (Json.bool b).NullFree :=
  trivial

@[simp] theorem nullFree_str (s : String) : (Json.str s).NullFree :=
  trivial

@[simp] theorem nullFree_uint16 (n : UInt16) : (ofUInt16 n).NullFree :=
  trivial

@[simp] theorem nullFree_uint32 (n : UInt32) : (ofUInt32 n).NullFree :=
  trivial

@[simp] theorem nullFree_float_iff (x : Binary64) : (ofBinary64 x).NullFree ↔ x.isFinite = true :=
  Iff.rfl

@[simp] theorem nullFree_arr_iff : (Json.arr items).NullFree ↔ ∀ j ∈ items, j.NullFree := by
  change ItemsNullFree items ↔ _
  induction items with
  | nil => simp [ItemsNullFree]
  | cons j rest ih => rw [ItemsNullFree, List.forall_mem_cons, ih]

theorem nullFree_obj_iff : (Json.obj members).NullFree ↔ ∀ m ∈ members, m.2.NullFree := by
  change MembersNullFree members ↔ _
  induction members with
  | nil => simp [MembersNullFree]
  | cons m rest ih => rw [MembersNullFree, List.forall_mem_cons, ih]

/-- An object is free of `null` when whatever is given is. -/
@[simp] theorem nullFree_given_iff :
    (Json.obj (given fields)).NullFree ↔ ∀ f ∈ fields, ∀ j ∈ f.2, j.NullFree := by
  rw [nullFree_obj_iff]
  constructor
  · rintro h ⟨k, o⟩ hf j hj
    obtain rfl : o = some j := hj
    exact h (k, j) (mem_given_iff.2 hf)
  · rintro h ⟨k, j⟩ hm
    exact h _ (mem_given_iff.1 hm) j rfl

end

/-! ### What is sent -/

variable {α : Type} {c : Codec α} {a : α}

/-- An object with these members is written, each of them once and none of them, or of what is in
them, as `null`. -/
structure Codec.Sends (c : Codec α) (a : α) (members : List (String × Json)) : Prop where
  encode : c.encode a = .obj members
  once : (members.map Prod.fst).Nodup
  text : ∃ n, Json.read (c.write a) = (n, false) ∧
    n.Denotes (.obj (rereadMembers members)) ∧ n.NullFree

theorem Codec.sends_given {fields : List (String × Option Json)}
    (hencode : c.encode a = .obj (given fields)) (hnames : (fields.map Prod.fst).Nodup)
    (hfree : (Json.obj (given fields)).NullFree) : c.Sends a (given fields) := by
  obtain ⟨n, hread, hn⟩ := exists_read_encode (c.encode a)
  rw [hencode] at hn
  refine ⟨hencode, hnames.sublist (keys_given_sublist fields), n, hread, ?_, ?_⟩
  · rwa [reread] at hn
  · exact nullFree_of_denotes _ hn hfree

end CloudClient.Json
