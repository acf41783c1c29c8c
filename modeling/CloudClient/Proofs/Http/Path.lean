import CloudClient.Http.Target

/-!
Paths and their segments. A server, or anything on the way to it, may take the segments `.` and `..`
out of a path; the paths that this leaves as they are have no such segments.
-/

namespace CloudClient.Http

/-! ### Parts between signs -/

namespace Query

variable {sep : Char} {cs : List Char}

theorem splitAt_sep (sep : Char) (cs : List Char) :
    splitAt sep (sep :: cs) = [] :: splitAt sep cs := by
  rw [splitAt, if_pos rfl]

theorem splitAt_cons {c : Char} {part : List Char} {parts : List (List Char)} (hc : c ≠ sep)
    (h : splitAt sep cs = part :: parts) : splitAt sep (c :: cs) = (c :: part) :: parts := by
  rw [splitAt, if_neg hc, h]

theorem exists_splitAt (sep : Char) (cs : List Char) :
    ∃ part parts, splitAt sep cs = part :: parts := by
  induction cs with
  | nil => exact ⟨[], [], rfl⟩
  | cons c cs ih =>
    obtain ⟨part, parts, h⟩ := ih
    by_cases hc : c = sep
    · subst hc
      exact ⟨[], _, splitAt_sep c cs⟩
    · exact ⟨c :: part, parts, splitAt_cons hc h⟩

theorem splitAt_append_sep (sep : Char) (cs ds : List Char) :
    splitAt sep (cs ++ sep :: ds) = splitAt sep cs ++ splitAt sep ds := by
  induction cs with
  | nil => exact splitAt_sep sep ds
  | cons c cs ih =>
    rw [List.cons_append]
    by_cases hc : c = sep
    · subst hc
      rw [splitAt_sep, splitAt_sep, ih, List.cons_append]
    · obtain ⟨part, parts, h⟩ := exists_splitAt sep cs
      rw [h, List.cons_append] at ih
      rw [splitAt_cons hc h, splitAt_cons hc ih, List.cons_append]

theorem splitAt_of_not_mem (h : sep ∉ cs) : splitAt sep cs = [cs] := by
  induction cs with
  | nil => rfl
  | cons c cs ih =>
    rw [List.mem_cons, not_or] at h
    exact splitAt_cons (Ne.symm h.1) (ih h.2)

/-- The parts put together again. -/
theorem eq_of_splitAt {part : List Char} {parts : List (List Char)}
    (h : splitAt sep cs = part :: parts) : cs = part ++ parts.flatMap (sep :: ·) := by
  induction cs generalizing part parts with
  | nil =>
    cases h
    rfl
  | cons c cs ih =>
    obtain ⟨first, others, hcs⟩ := exists_splitAt sep cs
    have hrest := ih hcs
    by_cases hc : c = sep
    · subst hc
      rw [splitAt_sep, hcs] at h
      cases h
      rw [List.nil_append, List.flatMap_cons, List.cons_append, ← hrest]
    · rw [splitAt_cons hc hcs] at h
      cases h
      rw [List.cons_append, ← hrest]

theorem not_mem_of_mem_splitAt {part : List Char} (h : part ∈ splitAt sep cs) : sep ∉ part := by
  induction cs generalizing part with
  | nil =>
    rw [splitAt, List.mem_singleton] at h
    simp [h]
  | cons c cs ih =>
    obtain ⟨first, others, hcs⟩ := exists_splitAt sep cs
    rw [hcs] at ih
    by_cases hc : c = sep
    · subst hc
      rw [splitAt_sep, hcs] at h
      rcases List.mem_cons.1 h with rfl | h
      · simp
      · exact ih h
    · rw [splitAt_cons hc hcs] at h
      rcases List.mem_cons.1 h with rfl | h
      · have hfirst := ih (List.mem_cons_self ..)
        simp [Ne.symm hc, hfirst]
      · exact ih (List.mem_cons_of_mem _ h)

end Query

/-! ### Dot segments -/

/-- What is left of a path without its last segment and the slash before that. -/
def withoutLast (path : List Char) : List Char :=
  ((path.reverse.dropWhile (· ≠ '/')).drop 1).reverse

/-- Takes the dot segments out of a path: `.` stands for nothing, and `..` takes back the segment
before it. What is left of the segments that have been read is in `before`. -/
def removeDots (before : List Char) : List Char → List Char
  | [] => before
  | ['.'] => before
  | ['.', '.'] => before
  | '.' :: '/' :: rest => removeDots before rest
  | '.' :: '.' :: '/' :: rest => removeDots before rest
  | ['/', '.'] => removeDots before ['/']
  | ['/', '.', '.'] => removeDots (withoutLast before) ['/']
  | '/' :: '.' :: '/' :: rest => removeDots before ('/' :: rest)
  | '/' :: '.' :: '.' :: '/' :: rest => removeDots (withoutLast before) ('/' :: rest)
  | c :: rest => removeDots (before ++ c :: rest.takeWhile (· ≠ '/')) (rest.dropWhile (· ≠ '/'))
termination_by path => path.length
decreasing_by
  all_goals simp only [List.length_cons, List.length_nil]
  all_goals try omega
  have hdrop := (List.dropWhile_sublist (l := rest) (· ≠ '/')).length_le
  omega

/-- A segment that is not taken for a name. -/
def IsDots (segment : List Char) : Prop :=
  segment = ['.'] ∨ segment = ['.', '.']

instance (segment : List Char) : Decidable (IsDots segment) :=
  inferInstanceAs (Decidable (_ ∨ _))

theorem length_withoutLast_le (path : List Char) : (withoutLast path).length ≤ path.length := by
  have hdrop := (List.dropWhile_sublist (l := path.reverse) (· ≠ '/')).length_le
  rw [List.length_reverse] at hdrop
  rw [withoutLast, List.length_reverse, List.length_drop]
  omega

theorem length_removeDots_le (before path : List Char) :
    (removeDots before path).length ≤ before.length + path.length := by
  fun_induction removeDots before path with
  | case1 | case2 | case3 => simp
  | case4 before rest ih | case5 before rest ih | case6 before ih | case8 before rest ih =>
    simp only [List.length_cons, List.length_nil] at ih ⊢
    omega
  | case7 before ih | case9 before rest ih =>
    have hlast := length_withoutLast_le before
    simp only [List.length_cons, List.length_nil] at ih ⊢
    omega
  | case10 before c rest _ _ _ _ _ _ _ _ ih =>
    have hparts := congrArg List.length
      (List.takeWhile_append_dropWhile (p := (· ≠ '/')) (l := rest))
    simp only [List.length_append, List.length_cons] at ih hparts ⊢
    omega

/-- Empty, or begun by a sign: what may follow a part that ends before the sign. -/
def OpensWith (sep : Char) (cs : List Char) : Prop :=
  cs = [] ∨ ∃ rest, cs = sep :: rest

theorem takeWhile_part {sep : Char} {part rest : List Char} (hp : sep ∉ part)
    (hr : OpensWith sep rest) : (part ++ rest).takeWhile (· ≠ sep) = part := by
  induction part with
  | nil =>
    rcases hr with rfl | ⟨rest, rfl⟩
    · rfl
    · simp
  | cons c part ih =>
    rw [List.mem_cons, not_or] at hp
    rw [List.cons_append, List.takeWhile_cons, if_pos (by simpa using Ne.symm hp.1), ih hp.2]

theorem dropWhile_part {sep : Char} {part rest : List Char} (hp : sep ∉ part)
    (hr : OpensWith sep rest) : (part ++ rest).dropWhile (· ≠ sep) = rest := by
  have hparts := List.takeWhile_append_dropWhile (p := (· ≠ sep)) (l := part ++ rest)
  rw [takeWhile_part hp hr] at hparts
  exact List.append_cancel_left hparts

variable {segment rest : List Char}

theorem removeDots_name (before : List Char) (hs : '/' ∉ segment) (hd : ¬ IsDots segment)
    (hr : OpensWith '/' rest) :
    removeDots before ('/' :: (segment ++ rest)) =
      removeDots (before ++ '/' :: segment) rest := by
  have hname : segment = (segment ++ rest).takeWhile (· ≠ '/') := (takeWhile_part hs hr).symm
  have hmove : removeDots before ('/' :: (segment ++ rest)) =
      removeDots (before ++ '/' :: (segment ++ rest).takeWhile (· ≠ '/'))
        ((segment ++ rest).dropWhile (· ≠ '/')) := by
    rw [removeDots]
    case x_5 =>
      intro _ h
      rw [h] at hname
      exact hd (.inl hname)
    case x_6 =>
      intro _ h
      rw [h] at hname
      exact hd (.inr hname)
    case x_7 =>
      intro _ _ h
      rw [h] at hname
      exact hd (.inl hname)
    case x_8 =>
      intro _ _ h
      rw [h] at hname
      exact hd (.inr hname)
    -- the other ways to read a path begin with a dot
    all_goals
      intros
      contradiction
  rw [hmove, ← hname, dropWhile_part hs hr]

/-- Some of the path is gone when it has a dot segment. -/
theorem length_removeDots_lt (before : List Char) (hd : IsDots segment) (hr : OpensWith '/' rest) :
    (removeDots before ('/' :: (segment ++ rest))).length <
      before.length + ('/' :: (segment ++ rest)).length := by
  rcases hd with rfl | rfl
  · rcases hr with rfl | ⟨rest, rfl⟩
    · have hle := length_removeDots_le before ['/']
      change (removeDots before ['/', '.']).length < before.length + 2
      rw [removeDots]
      exact Nat.lt_succ_of_le hle
    · have hle := length_removeDots_le before ('/' :: rest)
      change (removeDots before ('/' :: '.' :: '/' :: rest)).length < _
      rw [removeDots]
      simp only [List.length_append, List.length_cons] at hle ⊢
      omega
  · have hlast := length_withoutLast_le before
    rcases hr with rfl | ⟨rest, rfl⟩
    · have hle := length_removeDots_le (withoutLast before) ['/']
      change (removeDots before ['/', '.', '.']).length < before.length + 3
      rw [removeDots]
      rw [List.length_singleton] at hle
      omega
    · have hle := length_removeDots_le (withoutLast before) ('/' :: rest)
      change (removeDots before ('/' :: '.' :: '.' :: '/' :: rest)).length < _
      rw [removeDots]
      simp only [List.length_append, List.length_cons] at hle ⊢
      omega

/-- The segments of a path, each after a slash. -/
def ofSegments (segments : List (List Char)) : List Char :=
  segments.flatMap ('/' :: ·)

theorem ofSegments_cons (segment : List Char) (segments : List (List Char)) :
    ofSegments (segment :: segments) = '/' :: (segment ++ ofSegments segments) :=
  List.flatMap_cons

theorem opensWith_ofSegments (segments : List (List Char)) :
    OpensWith '/' (ofSegments segments) := by
  cases segments with
  | nil => exact .inl rfl
  | cons segment segments => exact .inr ⟨_, ofSegments_cons segment segments⟩

theorem splitAt_ofSegments {segments : List (List Char)}
    (hs : ∀ segment ∈ segments, '/' ∉ segment) :
    Query.splitAt '/' (ofSegments segments) = [] :: segments := by
  have hparts (first : List Char) (hf : '/' ∉ first) :
      Query.splitAt '/' (first ++ ofSegments segments) = first :: segments := by
    induction segments generalizing first with
    | nil => rw [ofSegments, List.flatMap_nil, List.append_nil, Query.splitAt_of_not_mem hf]
    | cons segment segments ih =>
      obtain ⟨hhead, htail⟩ := List.forall_mem_cons.1 hs
      rw [ofSegments_cons, Query.splitAt_append_sep, Query.splitAt_of_not_mem hf,
        ih htail segment hhead, List.singleton_append]
  exact hparts [] (List.not_mem_nil)

theorem removeDots_ofSegments_iff (before : List Char) {segments : List (List Char)}
    (hs : ∀ segment ∈ segments, '/' ∉ segment) :
    removeDots before (ofSegments segments) = before ++ ofSegments segments ↔
      ∀ segment ∈ segments, ¬ IsDots segment := by
  induction segments generalizing before with
  | nil =>
    rw [ofSegments, List.flatMap_nil, removeDots, List.append_nil]
    simp
  | cons segment segments ih =>
    obtain ⟨hhead, htail⟩ := List.forall_mem_cons.1 hs
    have hslash := opensWith_ofSegments segments
    rw [ofSegments_cons, List.forall_mem_cons]
    by_cases hd : IsDots segment
    · have hlt := length_removeDots_lt before hd hslash
      constructor
      · intro heq
        rw [heq, List.length_append] at hlt
        omega
      · intro hall
        exact absurd hd hall.1
    · have hall := ih (before ++ '/' :: segment) htail
      rw [List.append_assoc, List.cons_append] at hall
      rw [removeDots_name before hhead hd hslash, hall]
      exact (and_iff_right hd).symm

/-- A path that is empty or begins with a slash is left as it is just when it has no dot segments.
-/
theorem removeDots_eq_self_iff {path : List Char} (h : OpensWith '/' path) :
    removeDots [] path = path ↔ ∀ segment ∈ Query.splitAt '/' path, ¬ IsDots segment := by
  rcases h with rfl | ⟨rest, rfl⟩
  · rw [removeDots]
    decide
  · have hparts : Query.splitAt '/' ('/' :: rest) = [] :: Query.splitAt '/' rest :=
      Query.splitAt_sep '/' rest
    have hpath : '/' :: rest = ofSegments (Query.splitAt '/' rest) := Query.eq_of_splitAt hparts
    have hiff := removeDots_ofSegments_iff []
      fun segment (hs : segment ∈ Query.splitAt '/' rest) => Query.not_mem_of_mem_splitAt hs
    rw [← hpath, List.nil_append] at hiff
    rw [hiff, hparts, List.forall_mem_cons]
    exact (and_iff_right (by decide)).symm

/-! ### Slashes at an end -/

theorem dropWhile_slashes {rest : List Char} (n : Nat) (hrest : rest.head? ≠ some '/') :
    (List.replicate n '/' ++ rest).dropWhile (· == '/') = rest := by
  have hslashes : ∀ c ∈ List.replicate n '/', (c == '/') = true := by
    intro c hc
    rw [List.eq_of_mem_replicate hc]
    rfl
  rw [List.dropWhile_append_of_pos hslashes]
  cases rest with
  | nil => rfl
  | cons c rest => exact List.dropWhile_cons_of_neg (by simpa using hrest)

/-- Any text is some slashes and what is left without them. -/
theorem exists_slashes (cs : List Char) :
    ∃ n rest, cs = List.replicate n '/' ++ rest ∧ rest.head? ≠ some '/' := by
  induction cs with
  | nil => exact ⟨0, [], rfl, nofun⟩
  | cons c cs ih =>
    by_cases hc : c = '/'
    · obtain ⟨n, rest, rfl, hrest⟩ := ih
      exact ⟨n + 1, rest, congrArg (· :: _) hc, hrest⟩
    · exact ⟨0, c :: cs, rfl, by simpa using hc⟩

/-- However many slashes a path begins with, one of them stands between the base and the rest. -/
theorem toList_join {base path : String} {rest : List Char} {n : Nat}
    (hpath : path.toList = List.replicate n '/' ++ rest) (hrest : rest.head? ≠ some '/') :
    (join base path).toList = base.toList ++ '/' :: rest := by
  rw [join, String.toList_ofList, hpath, dropWhile_slashes n hrest]

end CloudClient.Http
