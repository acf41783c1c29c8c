import CloudClient.Proofs.Http.Path
import CloudClient.Proofs.Http.Percent

/-!
Forms that are read as the parameters they were written from. Names and values may be written in
any way that is read back and has none of the signs that stand between them.
-/

namespace CloudClient.Http.Query

/-- The parameters of a form that comes as bytes. -/
def ofBytes? (bytes : Bytes) : Option Query :=
  (Utf8.decode? bytes).bind fun s => decode? s.toList

/-- A way to write the names and values of a form. -/
structure Legible (write : String → List Char) : Prop where
  reads : ∀ s, Percent.decodeForm? (write s) = some s
  and_not_mem : ∀ s, '&' ∉ write s
  equals_not_mem : ∀ s, '=' ∉ write s

theorem legible_segmentChars : Legible Percent.segmentChars where
  reads := Percent.decodeForm?_segmentChars
  and_not_mem s := Percent.not_mem_segmentChars s (by decide)
  equals_not_mem s := Percent.not_mem_segmentChars s (by decide)

theorem legible_formChars : Legible Percent.formChars where
  reads := Percent.decodeForm?_formChars
  and_not_mem s := Percent.not_mem_formChars s (by decide)
  equals_not_mem s := Percent.not_mem_formChars s (by decide)

/-- A parameter as it is written. -/
def pairWith (write : String → List Char) (p : String × String) : List Char :=
  write p.1 ++ '=' :: write p.2

/-- Parts without the sign that is put between them are parted there again. -/
theorem splitAt_intercalate {sep : Char} {parts : List (List Char)}
    (hparts : ∀ part ∈ parts, sep ∉ part) (hne : parts ≠ []) :
    splitAt sep ([sep].intercalate parts) = parts := by
  induction parts with
  | nil => exact absurd rfl hne
  | cons part parts ih =>
    obtain ⟨hpart, hrest⟩ := List.forall_mem_cons.1 hparts
    cases parts with
    | nil => rw [List.intercalate_singleton, splitAt_of_not_mem hpart]
    | cons next parts =>
      rw [List.intercalate_cons_cons, List.append_assoc, List.singleton_append,
        splitAt_append_sep, splitAt_of_not_mem hpart, ih hrest (List.cons_ne_nil next parts),
        List.singleton_append]

section

variable {write : String → List Char}

theorem splitPair_pairWith (h : Legible write) (p : String × String) :
    splitPair (pairWith write p) = (write p.1, write p.2) := by
  have hopens : OpensWith '=' ('=' :: write p.2) := .inr ⟨_, rfl⟩
  rw [splitPair, pairWith, takeWhile_part (h.equals_not_mem p.1) hopens,
    dropWhile_part (h.equals_not_mem p.1) hopens]
  rfl

theorem and_not_mem_pairWith (h : Legible write) (p : String × String) :
    '&' ∉ pairWith write p := by
  rw [pairWith, List.mem_append, List.mem_cons, not_or, not_or]
  exact ⟨h.and_not_mem p.1, by decide, h.and_not_mem p.2⟩

/-- A form is read as the parameters it was written from, one by one. -/
theorem decode?_intercalate (h : Legible write) (params : Query) :
    decode? (['&'].intercalate (params.map (pairWith write))) = some params := by
  cases params with
  | nil => rfl
  | cons p params =>
    have hparts : ∀ part ∈ (p :: params).map (pairWith write), '&' ∉ part :=
      List.forall_mem_map.2 fun p _ => and_not_mem_pairWith h p
    have hfull : ((p :: params).map (pairWith write)).filter (!·.isEmpty) =
        (p :: params).map (pairWith write) := by
      refine List.filter_eq_self.2 (List.forall_mem_map.2 fun p _ => ?_)
      simp [pairWith]
    rw [decode?, splitAt_intercalate hparts (List.cons_ne_nil _ _), hfull]
    induction p :: params with
    | nil => rfl
    | cons p params ih =>
      rw [List.map_cons, List.mapM_cons, ih, splitPair_pairWith h p]
      simp only [h.reads]
      rfl

end

/-! ### Queries -/

theorem ofOptions_cons (key : String) (value? : Option String)
    (params : List (String × Option String)) :
    ofOptions ((key, value?) :: params) =
      (value?.map fun value => (key, value)).toList ++ ofOptions params := by
  cases value? <;> rfl

theorem chars_eq_intercalate (q : Query) :
    q.chars = ['&'].intercalate (q.map (pairWith Percent.formChars)) := by
  induction q with
  | nil => rfl
  | cons p q ih =>
    cases q with
    | nil => exact (List.intercalate_singleton ..).symm
    | cons next q =>
      change pairChars p ++ '&' :: chars (next :: q) = _
      rw [ih, List.map_cons, List.map_cons, List.map_cons, List.intercalate_cons_cons,
        List.append_assoc]
      rfl

/-- A query is read as the parameters it was written from. -/
theorem decode?_chars (q : Query) : decode? q.chars = some q := by
  rw [chars_eq_intercalate, decode?_intercalate legible_formChars]

/-- No sign in a query ends it or opens another one. -/
theorem not_mem_chars {c : Char} (hc : c ∈ ['/', '?', '#']) (q : Query) : c ∉ q.chars := by
  induction q with
  | nil => exact List.not_mem_nil
  | cons p q ih =>
    have hpair : c ∉ pairChars p := by
      have hsign : c ∈ Percent.signs := List.mem_append_left ['&', '='] hc
      rw [pairChars, List.mem_append, List.mem_cons, not_or, not_or]
      refine ⟨Percent.not_mem_formChars p.1 hsign, ?_, Percent.not_mem_formChars p.2 hsign⟩
      rintro rfl
      exact absurd hc (by decide)
    cases q with
    | nil => exact hpair
    | cons next q =>
      change c ∉ pairChars p ++ '&' :: chars (next :: q)
      rw [List.mem_append, List.mem_cons, not_or, not_or]
      refine ⟨hpair, ?_, ih⟩
      rintro rfl
      exact absurd hc (by decide)

end CloudClient.Http.Query
