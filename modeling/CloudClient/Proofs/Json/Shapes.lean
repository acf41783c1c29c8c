import CloudClient.Json.Record
import CloudClient.Proofs.Json.Restores
import Mathlib.Data.List.Forall2

/-!
Records that are read back as they were written. A field is found by its name among the members of
an object, so what a shape reads depends on no more than what is found under its names. Two shapes
agree on a record where each field that one writes is read by the other; most often they are the
same.
-/

namespace CloudClient.Json

/-! ### Members -/

theorem lookup_eq_none_of_notMem {β : Type} {ms : List (String × β)} {name : String}
    (h : name ∉ ms.map Prod.fst) : ms.lookup name = none := by
  rw [List.lookup_eq_none_iff]
  intro m hm
  rw [bne_iff_ne]
  rintro rfl
  exact h (List.mem_map_of_mem hm)

theorem mem_of_lookup {β : Type} {ms : List (String × β)} {name : String} {b : β}
    (h : ms.lookup name = some b) : (name, b) ∈ ms := by
  obtain ⟨before, after, rfl, _⟩ := List.lookup_eq_some_iff.1 h
  exact List.mem_append_right before List.mem_cons_self

/-- The members stand for named values. -/
def Shown (members : List (Except Fault String × Node)) (ms : List (String × Json)) : Prop :=
  List.Forall₂ (fun member m => member.1 = .ok m.1 ∧ member.2.Denotes m.2) members ms

theorem Node.MembersDenote.shown {ns : List (Literal × Node)} {ms : List (String × Json)}
    (h : Node.MembersDenote ns ms) : Shown (keyed ns) ms := by
  induction ms generalizing ns with
  | nil =>
    obtain rfl : ns = [] := h
    exact .nil
  | cons m rest ih =>
    obtain ⟨l, n, ns', rfl, hl, hn, hrest⟩ := h
    exact .cons ⟨hl.text, hn⟩ (ih hrest)

/-- What is found under a name, with what it stands for. -/
inductive Slot.Shows : Slot → Option Json → Prop where
  | present (place : Nat) {n : Node} {j : Json} (hn : n.Denotes j) :
    Slot.Shows (.present place n) (some j)
  | missing (place : Nat) : Slot.Shows (.missing place) none

theorem Shown.findMember {members : List (Except Fault String × Node)} {ms : List (String × Json)}
    (h : Shown members ms) (name : String) (place : Nat) :
    (findMember name place members).Shows (ms.lookup name) := by
  induction h generalizing place with
  | nil => exact .missing (place + 1)
  | @cons member m members ms hm _ ih =>
    obtain ⟨key, n⟩ := member
    obtain ⟨k, j⟩ := m
    obtain ⟨rfl, hn⟩ : key = .ok k ∧ n.Denotes j := hm
    rw [Json.findMember, List.lookup_cons]
    by_cases hk : k = name
    · rw [hk, beq_self_eq_true]
      dsimp only
      rw [if_pos rfl]
      exact .present place hn
    · rw [beq_eq_false_iff_ne.2 (Ne.symm hk)]
      dsimp only
      rw [if_neg hk]
      exact ih (place + 1)

/-! ### What is written -/

section

variable {σ α β : Type} (name : String) (c : Codec α)

@[simp] theorem encode_optional_some (a : α) : (optional c).encode (some a) = c.encode a :=
  rfl

@[simp] theorem Field.write_required (a : α) :
    (Field.required name c).write a = [(name, c.encode a)] :=
  rfl

@[simp] theorem Field.write_defaulted (value a : α) :
    (Field.defaulted name c value).write a = [(name, c.encode a)] :=
  rfl

@[simp] theorem Field.write_nullable (o : Option α) :
    (Field.nullable name c).write o = [(name, (optional c).encode o)] :=
  rfl

@[simp] theorem Field.write_unset (o : Option α) :
    (Field.unset name c).write o = (o.map fun a => (name, c.encode a)).toList := by
  cases o <;> rfl

@[simp] theorem Field.write_placed (o : Option α) :
    (Field.placed name c).write o = (o.map fun a => (name, c.encode a)).toList := by
  cases o <;> rfl

@[simp] theorem Shape.write_of (b : β) (x : σ) : (Shape.of σ b).write x = [] :=
  rfl

@[simp] theorem Shape.write_and (s : Shape σ (α → β)) (get : σ → α) (f : Field α) (x : σ) :
    (s.and get f).write x = s.write x ++ f.write (get x) :=
  rfl

@[simp] theorem Shape.names_of (b : β) : (Shape.of σ b).names = [] :=
  rfl

@[simp] theorem Shape.names_and (s : Shape σ (α → β)) (get : σ → α) (f : Field α) :
    (s.and get f).names = s.names ++ [f.name] :=
  rfl

@[simp] theorem Field.name_required : (Field.required name c).name = name :=
  rfl

@[simp] theorem Field.name_defaulted (value : α) : (Field.defaulted name c value).name = name :=
  rfl

@[simp] theorem Field.name_nullable : (Field.nullable name c).name = name :=
  rfl

end

/-! ### Fields -/

namespace Field

variable {α : Type} {f g : Field α} {c : Codec α} {name : String} {depth : Nat} {a b : α}

/-- The field has the value `a` in an object with the members. -/
def Reads (f : Field α) (ms : List (String × Json)) (a : α) : Prop :=
  match ms.lookup f.name with
  | some j => f.codec.Reads j a
  | none => f.absent = some a

theorem Reads.read_object {ms : List (String × Json)} {members : List (Except Fault String × Node)}
    {levels : Nat} (h : f.Reads ms a) (hshown : Shown members ms)
    (hlevels : ∀ m ∈ ms, m.2.depth ≤ levels) (whole : String) (index : Nat) :
    f.read levels whole index (.object members) = .ok a := by
  have hslot := hshown.findMember f.name 0
  have hdepth (j : Json) (hj : ms.lookup f.name = some j) : j.depth ≤ levels :=
    hlevels _ (mem_of_lookup hj)
  rw [Field.read, Source.find]
  rw [Reads] at h
  generalize findMember f.name 0 members = slot at hslot ⊢
  generalize ms.lookup f.name = found at hslot h hdepth
  cases hslot with
  | present place hn =>
    dsimp only
    rw [h (hdepth _ rfl) hn]
    rfl
  | missing place =>
    dsimp only
    rw [show f.absent = some a from h]

theorem Reads.of_lacking {ms : List (String × Json)} (hlacks : ms.lookup f.name = none)
    (habsent : f.absent = some a) : f.Reads ms a := by
  rw [Reads, hlacks]
  exact habsent

/-- What `f` writes for `a` is read by `g` as `b`. -/
structure Carries (f g : Field α) (depth : Nat) (a b : α) : Prop where
  keys : ((f.write a).map Prod.fst).Sublist [g.name]
  fits : ∀ m ∈ f.write a, m.2.Fits depth
  reads : ∀ ms : List (String × Json),
    ms.lookup g.name = (f.write a).lookup g.name → g.Reads ms b

/-- A field that is written is read where it was written. -/
theorem carries_of_written (hname : g.name = f.name) (hcodec : g.codec = f.codec)
    (hleave : f.leaveOut a = false) (hfits : (f.codec.encode a).Fits depth)
    (hreads : f.codec.Reads (f.codec.encode a) b) : f.Carries g depth a b := by
  have hwrite : f.write a = [(g.name, f.codec.encode a)] := by
    rw [write, hleave, if_neg Bool.false_ne_true, hname]
  refine ⟨?_, ?_, fun ms hms => ?_⟩
  · rw [hwrite]
    exact .refl _
  · rw [hwrite, List.forall_mem_singleton]
    exact hfits
  · rw [hwrite, List.lookup_cons_self] at hms
    rw [Reads, hms, hcodec]
    exact hreads

/-- A field that is left out is read as what it is where it is lacking. -/
theorem carries_of_leaveOut (hleave : f.leaveOut a = true) (habsent : g.absent = some b) :
    f.Carries g depth a b := by
  have hwrite : f.write a = [] := by
    rw [write, if_pos hleave]
  refine ⟨?_, ?_, fun ms hms => ?_⟩
  · rw [hwrite]
    exact List.nil_sublist _
  · rw [hwrite]
    nofun
  · rw [hwrite] at hms
    exact .of_lacking hms habsent

theorem required_carries (h : c.Carries depth a b) :
    (required name c).Carries (required name c) depth a b :=
  carries_of_written rfl rfl rfl h.fits h.reads

theorem defaulted_carries {value : α} (h : c.Carries depth a b) :
    (defaulted name c value).Carries (defaulted name c value) depth a b :=
  carries_of_written rfl rfl rfl h.fits h.reads

theorem several_carries {as : List α} (h : ∀ a ∈ as, c.Restores depth a) :
    (several name c).Carries (several name c) (depth + 1) as as := by
  cases as with
  | nil => exact carries_of_leaveOut rfl rfl
  | cons a as =>
    have hlist := list_restores (c := c) h
    exact carries_of_written rfl rfl rfl hlist.fits hlist.reads

/-- An option that is left out when unset is read alike wherever it may be lacking. -/
theorem option_carries {last last' : Option (Option α)} {leaveOut : Option α → Bool}
    {o o' : Option α} (h : Option.Rel (c.Carries depth) o o') :
    (Field.mk name (optional c) (some none) last Option.isNone).Carries
      (Field.mk name (optional c) (some none) last' leaveOut) depth o o' := by
  cases h with
  | none => exact carries_of_leaveOut rfl rfl
  | some h =>
    have hoption := optional_carries h
    exact carries_of_written rfl rfl rfl hoption.fits hoption.reads

theorem unset_carries {o : Option α} (h : ∀ a ∈ o, c.Restores depth a) :
    (unset name c).Carries (unset name c) depth o o :=
  option_carries (option_restores h)

theorem placed_carries {o : Option α} (h : ∀ a ∈ o, c.Restores depth a) :
    (placed name c).Carries (placed name c) depth o o :=
  option_carries (option_restores h)

/-- An option that is written in any case is `null` where it is unset. -/
theorem nullable_carries {o : Option α} (h : ∀ a ∈ o, c.Restores depth a) :
    (nullable name c).Carries (nullable name c) depth o o := by
  cases o with
  | none => exact carries_of_written rfl rfl rfl ⟨trivial, Nat.zero_le depth⟩ optional_reads_null
  | some a =>
    have hoption := optional_carries (h a rfl)
    exact carries_of_written rfl rfl rfl hoption.fits hoption.reads

theorem unset_carries_nullable {o o' : Option α} (h : Option.Rel (c.Carries depth) o o') :
    (unset name c).Carries (nullable name c) depth o o' :=
  option_carries h

end Field

/-! ### Shapes -/

namespace Shape

variable {σ τ α β γ : Type} {s : Shape σ β} {t : Shape τ γ} {depth : Nat} {x : σ} {b : β} {y : γ}
  {ms : List (String × Json)}

/-- The fields have the value `y` in an object with the members. -/
def Reads (t : Shape τ γ) (ms : List (String × Json)) (y : γ) : Prop :=
  ∀ ⦃levels : Nat⦄ ⦃members : List (Except Fault String × Node)⦄, (∀ m ∈ ms, m.2.depth ≤ levels) →
    Shown members ms → ∀ whole, t.read levels whole (.object members) = .ok y

theorem Reads.and {t : Shape τ (α → γ)} {g : α → γ} {get : τ → α} {f : Field α} {a : α}
    (h : t.Reads ms g) (hf : f.Reads ms a) : (t.and get f).Reads ms (g a) := by
  intro levels members hlevels hshown whole
  change (t.read levels whole _).both (f.read levels whole _ _) = _
  rw [h hlevels hshown, hf.read_object hshown hlevels]
  rfl

/-- What `s` writes for `x` is read by `t` as `y`. Other members do not disturb it, as long as they
have other keys. -/
structure Carries (s : Shape σ β) (t : Shape τ γ) (depth : Nat) (x : σ) (y : γ) : Prop where
  keys : ((s.write x).map Prod.fst).Sublist t.names
  fits : ∀ m ∈ s.write x, m.2.Fits depth
  reads : t.names.Nodup → ∀ ms : List (String × Json),
    (∀ name ∈ t.names, ms.lookup name = (s.write x).lookup name) → t.Reads ms y

namespace Carries

theorem of : (Shape.of σ b).Carries (Shape.of τ y) depth x y where
  keys := .slnil
  fits := nofun
  reads _ _ _ _ _ _ _ _ := rfl

theorem lookup_eq_none {name : String} (h : s.Carries t depth x y) (hname : name ∉ t.names) :
    (s.write x).lookup name = none :=
  lookup_eq_none_of_notMem fun hmem => hname (h.keys.subset hmem)

theorem and {s : Shape σ (α → β)} {t : Shape τ (α → γ)} {get : σ → α} {get' : τ → α}
    {f f' : Field α} {g : α → γ} {a : α} (h : s.Carries t depth x g)
    (hf : f.Carries f' depth (get x) a) : (s.and get f).Carries (t.and get' f') depth x (g a) where
  keys := by
    rw [Shape.and, List.map_append]
    exact h.keys.append hf.keys
  fits m hm := (List.mem_append.1 hm).elim (h.fits m) (hf.fits m)
  reads hnodup ms hms := by
    obtain ⟨hnames, _, hdisjoint⟩ := List.nodup_append.1 hnodup
    have hfresh : f'.name ∉ t.names := fun hmem =>
      hdisjoint _ hmem _ (List.mem_singleton_self _) rfl
    refine (h.reads hnames ms fun name hname => ?_).and (hf.reads ms ?_)
    · -- A name of the fields before is not that of the new one.
      have hnew : (f.write (get x)).lookup name = none := lookup_eq_none_of_notMem fun hmem =>
        hfresh (List.mem_singleton.1 (hf.keys.subset hmem) ▸ hname)
      rw [hms name (List.mem_append_left _ hname), Shape.and, List.lookup_append, hnew,
        Option.or_none]
    · rw [hms f'.name (List.mem_append_right _ (List.mem_singleton_self _)), Shape.and,
        List.lookup_append, h.lookup_eq_none hfresh, Option.none_or]

/-- A field that is read but never written is what it is where it is lacking. -/
theorem lacking {t : Shape τ (α → γ)} {get : τ → α} {f : Field α} {g : α → γ} {a : α}
    (habsent : f.absent = some a) (h : s.Carries t depth x g) :
    s.Carries (t.and get f) depth x (g a) where
  keys := h.keys.trans (List.sublist_append_left _ _)
  fits := h.fits
  reads hnodup ms hms := by
    obtain ⟨hnames, _, hdisjoint⟩ := List.nodup_append.1 hnodup
    have hfresh : f.name ∉ t.names := fun hmem =>
      hdisjoint _ hmem _ (List.mem_singleton_self _) rfl
    refine (h.reads hnames ms fun name hname => hms name (List.mem_append_left _ hname)).and
      (.of_lacking ?_ habsent)
    rw [hms f.name (List.mem_append_right _ (List.mem_singleton_self _)), h.lookup_eq_none hfresh]

/-- The members as they are written, and no others. -/
theorem reads_write (h : s.Carries t depth x y) (hnames : t.names.Nodup) : t.Reads (s.write x) y :=
  h.reads hnames _ fun _ _ => rfl

theorem nodup_keys (h : s.Carries t depth x y) (hnames : t.names.Nodup) :
    ((s.write x).map Prod.fst).Nodup :=
  hnames.sublist h.keys

end Carries

end Shape

/-! ### Objects -/

/-- One walk over an object whose keys differ, which keeps what `R` says of each other member. -/
theorem Shown.exists_scan {κ : Type} {names : List String} {others : Others κ} {levels : Nat}
    {R : String × Json → List κ → Prop} {members : List (Except Fault String × Node)}
    {ms : List (String × Json)} (h : Shown members ms) (hkeys : (ms.map Prod.fst).Nodup)
    (hothers : ∀ m ∈ ms, m.1 ∉ names → ∀ n : Node, n.Denotes m.2 →
      ∃ kept, others levels m.1 n = .ok kept ∧ R m kept)
    (place : Nat) (seen : List String) (hseen : ∀ m ∈ ms, m.1 ∉ seen) :
    ∃ xss, scan names others levels .closed place seen members = .ok xss.flatten ∧
      List.Forall₂ R (ms.filter (·.1 ∉ names)) xss := by
  induction h generalizing place seen with
  | nil => exact ⟨[], rfl, .nil⟩
  | @cons member m members ms hm _ ih =>
    obtain ⟨key, n⟩ := member
    obtain ⟨k, j⟩ := m
    obtain ⟨rfl, hn⟩ : key = .ok k ∧ n.Denotes j := hm
    rw [List.map_cons, List.nodup_cons] at hkeys
    rw [List.forall_mem_cons] at hothers hseen
    rw [scan]
    by_cases hk : k ∈ names
    · have hseen' : ∀ m ∈ ms, m.1 ∉ k :: seen := by
        intro m hm hmem
        obtain heq | hmem := List.mem_cons.1 hmem
        · exact hkeys.1 (List.mem_map.2 ⟨m, hm, heq⟩)
        · exact hseen.2 m hm hmem
      obtain ⟨xss, hscan, hR⟩ := ih hkeys.2 hothers.2 (place + 1) (k :: seen) hseen'
      refine ⟨xss, ?_, ?_⟩
      · rw [if_pos hk, if_neg hseen.1, hscan]
      · rw [List.filter_cons_of_neg (by simpa using hk)]
        exact hR
    · obtain ⟨kept, hkept, hRm⟩ := hothers.1 hk n hn
      obtain ⟨xss, hscan, hR⟩ := ih hkeys.2 hothers.2 (place + 1) seen hseen.2
      refine ⟨kept :: xss, ?_, ?_⟩
      · rw [if_neg hk, hkept, hscan]
        rfl
      · rw [List.filter_cons_of_pos (by simpa using hk)]
        exact .cons hRm hR

namespace Shape

variable {σ τ α β γ κ : Type} {s : Shape σ β} {t : Shape τ γ} {depth : Nat} {x : σ} {b : β} {y : γ}
  {ms : List (String × Json)}

theorem Reads.readObject {others : Others κ} {levels : Nat}
    {members : List (Except Fault String × Node)} {kept : List κ} (h : t.Reads ms y)
    (hlevels : ∀ m ∈ ms, m.2.depth ≤ levels) (hshown : Shown members ms)
    (hscan : scan t.names others levels .closed 0 [] members = .ok kept) (label : String) :
    t.readObject label others levels members .closed = .ok (y, kept) := by
  rw [Shape.readObject, hscan, h hlevels hshown]
  rfl

/-- Members that are no fields are passed over. -/
theorem Reads.exists_readObject {levels : Nat} {members : List (Except Fault String × Node)}
    (h : t.Reads ms y) (hkeys : (ms.map Prod.fst).Nodup) (hlevels : ∀ m ∈ ms, m.2.depth ≤ levels)
    (hshown : Shown members ms) (label : String) :
    ∃ kept, t.readObject label .skipped levels members .closed = .ok (y, kept) := by
  have hskipped : ∀ m ∈ ms, m.1 ∉ t.names → ∀ n : Node, n.Denotes m.2 →
      ∃ kept, Others.skipped levels m.1 n = .ok kept ∧ True := fun m _ _ n hn =>
    ⟨[], by rw [Others.skipped, hn.skip]; rfl, trivial⟩
  obtain ⟨xss, hscan, _⟩ := hshown.exists_scan hkeys hskipped 0 [] fun _ _ => List.not_mem_nil
  exact ⟨xss.flatten, h.readObject hlevels hshown hscan label⟩

theorem Reads.record {t : Shape γ γ} (h : t.Reads ms y) (hkeys : (ms.map Prod.fst).Nodup)
    (label : String) : (t.record label).Reads (.obj ms) y := by
  refine .of_members fun levels ns hlevels hns => ?_
  obtain ⟨kept, hread⟩ := h.exists_readObject hkeys hlevels hns.shown label
  change ((t.readObject label .skipped levels (keyed ns) .closed).map Prod.fst).toExcept = _
  rw [hread]
  rfl

/-- A record is read among other members, of which what `R` says is kept. -/
theorem Carries.exists_readObject {others : Others κ} {levels : Nat}
    {R : String × Json → List κ → Prop} {members : List (Except Fault String × Node)}
    {rest : List (String × Json)} (h : s.Carries s depth x b)
    (hkeys : (s.names ++ rest.map Prod.fst).Nodup)
    (hlevels : ∀ m ∈ s.write x ++ rest, m.2.depth ≤ levels)
    (hshown : Shown members (s.write x ++ rest))
    (hothers : ∀ m ∈ rest, ∀ n : Node, n.Denotes m.2 →
      ∃ kept, others levels m.1 n = .ok kept ∧ R m kept) (label : String) :
    ∃ kept, s.readObject label others levels members .closed = .ok (b, kept.flatten) ∧
      List.Forall₂ R rest kept := by
  obtain ⟨hnames, _, hdisjoint⟩ := List.nodup_append.1 hkeys
  have hwritten : ∀ m ∈ s.write x, m.1 ∈ s.names := fun m hm =>
    h.keys.subset (List.mem_map_of_mem hm)
  have hrest : ∀ m ∈ rest, m.1 ∉ s.names := fun m hm hmem =>
    hdisjoint _ hmem _ (List.mem_map_of_mem hm) rfl
  have hfilter : (s.write x ++ rest).filter (·.1 ∉ s.names) = rest := by
    rw [List.filter_append, List.filter_eq_nil_iff.2 fun m hm => by simpa using hwritten m hm,
      List.filter_eq_self.2 fun m hm => by simpa using hrest m hm, List.nil_append]
  have hall : ((s.write x ++ rest).map Prod.fst).Nodup := by
    rw [List.map_append]
    exact hkeys.sublist (h.keys.append_right _)
  obtain ⟨kept, hscan, hkept⟩ := hshown.exists_scan hall (fun m hm hfresh =>
    hothers m ((List.mem_append.1 hm).resolve_left fun hm => hfresh (hwritten m hm))) 0 []
    fun _ _ => List.not_mem_nil
  refine ⟨kept, Reads.readObject (h.reads hnames _ fun name hname => ?_) hlevels hshown hscan label,
    hfilter ▸ hkept⟩
  have hnone : rest.lookup name = none :=
    lookup_eq_none_of_notMem fun hmem => hdisjoint _ hname _ hmem rfl
  rw [List.lookup_append, hnone, Option.or_none]

end Shape

theorem Codec.Carries.record {σ : Type} {s : Shape σ σ} {depth : Nat} {x y z : σ} {label : String}
    (hnames : s.names.Nodup) (hz : y = z) (h : s.Carries s depth x y) :
    (s.record label).Carries (depth + 1) x z where
  fits := .obj h.fits
  ne_null := nofun
  reads := hz ▸ (h.reads_write hnames).record (h.nodup_keys hnames) label

/-- What is written as a record of one type may be read as a record of another. -/
theorem Codec.read_record {σ γ : Type} {s : Shape σ σ} {t : Shape γ γ} {depth : Nat} {x : σ}
    {y z : γ} {label label' : String} (hnames : t.names.Nodup) (hz : y = z)
    (hdepth : depth + 1 ≤ levelLimit) (h : s.Carries t depth x y) :
    (t.record label').read ((s.record label).write x) = .ok z :=
  ((hz ▸ h.reads_write hnames).record (h.nodup_keys hnames) label').read
    ⟨(Fits.obj h.fits).survives, Nat.le_trans (Fits.obj h.fits).depth_le hdepth⟩

end CloudClient.Json
