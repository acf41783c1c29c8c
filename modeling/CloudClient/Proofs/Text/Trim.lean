import CloudClient.Text.Blank

/-!
Texts without blanks at their ends. Trimming takes away all that stands around such a text, and it
always leaves one.
-/

namespace CloudClient.Text

/-- There is nothing to trim at either end. -/
structure Trimmed (cs : List Char) : Prop where
  first : ∀ c ∈ cs.head?, isBlank c = false
  last : ∀ c ∈ cs.getLast?, isBlank c = false

theorem trimmed_iff {cs : List Char} : Trimmed cs ↔
    (cs.head?.all (!isBlank ·) && cs.getLast?.all (!isBlank ·)) = true := by
  rw [Bool.and_eq_true, Option.all_eq_true, Option.all_eq_true]
  simp only [Bool.not_eq_true']
  exact ⟨fun h => ⟨h.first, h.last⟩, fun h => ⟨h.1, h.2⟩⟩

instance (cs : List Char) : Decidable (Trimmed cs) :=
  decidable_of_iff _ trimmed_iff.symm

variable {u v cs : List Char}

theorem trimStartList_append (hu : ∀ c ∈ u, isBlank c = true) (cs : List Char) :
    trimStartList (u ++ cs) = trimStartList cs :=
  List.dropWhile_append_of_pos hu

theorem trimEndList_append (hv : ∀ c ∈ v, isBlank c = true) (cs : List Char) :
    trimEndList (cs ++ v) = trimEndList cs := by
  have hreverse : ∀ c ∈ v.reverse, isBlank c = true := fun c hc => hv c (List.mem_reverse.1 hc)
  rw [trimEndList, List.reverse_append, List.dropWhile_append_of_pos hreverse, trimEndList]

theorem trimStartList_of_head (h : ∀ c ∈ cs.head?, isBlank c = false) : trimStartList cs = cs := by
  cases cs with
  | nil => rfl
  | cons c cs => exact List.dropWhile_cons_of_neg (by simp [h c rfl])

theorem trimEndList_of_last (h : ∀ c ∈ cs.getLast?, isBlank c = false) : trimEndList cs = cs := by
  have hreverse : trimStartList cs.reverse = cs.reverse := by
    refine trimStartList_of_head ?_
    rwa [List.head?_reverse]
  rw [trimEndList]
  rw [trimStartList] at hreverse
  rw [hreverse, List.reverse_reverse]

/-- Blanks around a text are all that is trimmed. -/
theorem trimList_between (hu : ∀ c ∈ u, isBlank c = true) (hv : ∀ c ∈ v, isBlank c = true)
    (h : Trimmed cs) : trimList (u ++ cs ++ v) = cs := by
  cases cs with
  | nil =>
    have hall : ∀ c ∈ u ++ [] ++ v, isBlank c = true := by
      intro c hc
      rw [List.append_nil] at hc
      exact (List.mem_append.1 hc).elim (hu c) (hv c)
    have hnone := trimStartList_append hall []
    rw [List.append_nil] at hnone
    rw [trimList, hnone]
    rfl
  | cons c cs =>
    have hfirst : ∀ b ∈ (c :: cs ++ v).head?, isBlank b = false := h.first
    rw [trimList, List.append_assoc, trimStartList_append hu, trimStartList_of_head hfirst,
      trimEndList_append hv, trimEndList_of_last h.last]

theorem trim_between {s : String} {before after : String}
    (hu : ∀ c ∈ before.toList, isBlank c = true) (hv : ∀ c ∈ after.toList, isBlank c = true)
    (h : Trimmed s.toList) : trim (before ++ s ++ after) = s := by
  rw [trim, String.toList_append, String.toList_append, trimList_between hu hv h,
    String.ofList_toList]

/-- All that is trimmed are blanks around what is left. -/
theorem exists_trim (s : String) : ∃ before after : List Char,
    s.toList = before ++ (trim s).toList ++ after ∧
      (∀ c ∈ before, isBlank c = true) ∧ ∀ c ∈ after, isBlank c = true := by
  let start := trimStartList s.toList
  refine ⟨s.toList.takeWhile isBlank, (start.reverse.takeWhile isBlank).reverse, ?_, ?_, ?_⟩
  · have hend : trimEndList start ++ (start.reverse.takeWhile isBlank).reverse = start := by
      rw [trimEndList, ← List.reverse_append, List.takeWhile_append_dropWhile, List.reverse_reverse]
    rw [trim, String.toList_ofList, trimList, List.append_assoc, hend]
    exact List.takeWhile_append_dropWhile.symm
  · exact List.all_eq_true.1 List.all_takeWhile
  · exact fun c hc => List.all_eq_true.1 List.all_takeWhile c (List.mem_reverse.1 hc)

/-- What is left of a text ends in no blank. -/
theorem last_trimList (cs : List Char) : ∀ c ∈ (trimList cs).getLast?, isBlank c = false := by
  intro c hc
  rw [trimList, trimEndList, List.getLast?_reverse] at hc
  have hhead := List.head?_dropWhile_not isBlank (trimStartList cs).reverse
  rw [Option.mem_def.1 hc] at hhead
  exact hhead

end CloudClient.Text
