import CloudClient.Proofs.Http.Form

/-!
Where requests go. Whoever takes a URL apart below its base finds the words of the target and the
parameters as they were given, whatever signs are in them.
-/

namespace CloudClient.Http

/-! ### URLs taken apart -/

/-- What of a URL stands below its base. -/
def below (base url : String) : List Char :=
  url.toList.drop base.toList.length

/-- The path of a URL below its base, up to the query if there is one. -/
def pathBelow (base url : String) : List Char :=
  (url.toList.drop base.toList.length).takeWhile (· ≠ '?')

/-- The query of a URL below its base, without the question mark. -/
def queryBelow (base url : String) : List Char :=
  ((below base url).dropWhile (· ≠ '?')).drop 1

/-- A URL asks for what these words name, with these parameters and nothing else: only parameters
have a question mark in front, and no part of it is a fragment. -/
structure Asks (base url : String) (words : List String) (params : Query) : Prop where
  base_le : base.toList <+: url.toList
  marks : (below base url).count '?' = if params.isEmpty then 0 else 1
  fragment : '#' ∉ below base url
  words : (Query.splitAt '/' (pathBelow base url)).mapM Percent.decodeSegment? = some ("" :: words)
  params : Query.decode? (queryBelow base url) = some params

/-- What a URL asks for is in the URL. -/
theorem Asks.unique {base url : String} {words words' : List String} {params params' : Query}
    (h : Asks base url words params) (h' : Asks base url words' params') :
    words = words' ∧ params = params' := by
  have hwords := h.words.symm.trans h'.words
  have hparams := h.params.symm.trans h'.params
  exact ⟨List.tail_eq_of_cons_eq (Option.some.inj hwords), Option.some.inj hparams⟩

/-! ### Targets -/

namespace Target

/-- The words of the path, with the name among them. -/
def words (t : Target) : List String :=
  t.collection ++ t.name.toList ++ t.suffix

/-- The words around a name are written as they are, and the first of them is not empty. -/
structure Regular (t : Target) : Prop where
  opens : ∃ word more, t.collection = word :: more ∧ word ≠ ""
  fixed : ∀ word ∈ t.collection ++ t.suffix, Percent.segmentChars word = word.toList

theorem Regular.all {collection : List String} {query : Query}
    (hopens : ∃ word more, collection = word :: more ∧ word ≠ "")
    (hfixed : ∀ word ∈ collection, Percent.segmentChars word = word.toList) :
    (Target.all collection query).Regular where
  opens := hopens
  fixed := by rwa [Target.all, List.append_nil]

theorem Regular.one {collection suffix : List String} {name : String} {query : Query}
    (hopens : ∃ word more, collection = word :: more ∧ word ≠ "")
    (hfixed : ∀ word ∈ collection ++ suffix, Percent.segmentChars word = word.toList) :
    (Target.one collection name suffix query).Regular where
  opens := hopens
  fixed := hfixed

/-- Question mark and parameters, where there are any. -/
def tail (t : Target) : List Char :=
  if t.query.isEmpty then [] else '?' :: t.query.chars

variable {t : Target}

theorem toList_render (t : Target) : t.render.toList = t.path.toList ++ t.tail := by
  rw [render, tail]
  split
  · exact (List.append_nil _).symm
  · exact String.toList_ofList

theorem opensWith_tail (t : Target) : OpensWith '?' t.tail := by
  rw [tail]
  split
  · exact .inl rfl
  · exact .inr ⟨_, rfl⟩

/-- No sign in a query opens another segment or a fragment. -/
theorem not_mem_tail {c : Char} (hc : c ∈ ['/', '#']) (t : Target) : c ∉ t.tail := by
  have hne : c ≠ '?' := by
    rintro rfl
    exact absurd hc (by decide)
  have hmem : c ∈ ['/', '?', '#'] :=
    List.cons_subset_cons '/' (List.subset_cons_self '?' ['#']) hc
  rw [tail]
  split
  case isTrue => exact List.not_mem_nil
  case isFalse => exact List.not_mem_cons_of_ne_of_not_mem hne (Query.not_mem_chars hmem t.query)

theorem toList_path (h : t.Regular) :
    t.path.toList = ofSegments (t.words.map Percent.segmentChars) := by
  obtain ⟨hcollection, hsuffix⟩ := List.forall_mem_append.1 h.fixed
  have hname : (t.name.map Percent.segment).toList.map String.toList =
      t.name.toList.map Percent.segmentChars := by
    cases t.name with
    | none => rfl
    | some name => exact congrArg (fun cs => [cs]) String.toList_ofList
  have hsegments : t.segments.map String.toList = t.words.map Percent.segmentChars := by
    rw [segments, words, List.map_append, List.map_append, List.map_append, List.map_append, hname,
      List.map_congr_left hcollection, List.map_congr_left hsuffix]
  rw [path, String.toList_ofList, ofSegments, ← hsegments, List.flatMap_map]

theorem not_mem_path {c : Char} (hc : c ∈ ['?', '#']) (h : t.Regular) : c ∉ t.path.toList := by
  have hsign : c ∈ Percent.signs := List.mem_cons_of_mem '/' (List.mem_append_left ['&', '='] hc)
  rw [toList_path h]
  intro hmem
  obtain ⟨segment, hsegment, hmem⟩ := List.mem_flatMap.1 hmem
  obtain ⟨word, _, rfl⟩ := List.mem_map.1 hsegment
  rcases List.mem_cons.1 hmem with rfl | hmem
  · exact absurd hc (by decide)
  · exact Percent.not_mem_segmentChars word hsign hmem

/-- The segments of a path are its words, each written without a slash. -/
theorem splitAt_path (h : t.Regular) :
    Query.splitAt '/' t.path.toList = [] :: t.words.map Percent.segmentChars := by
  rw [toList_path h]
  exact splitAt_ofSegments (List.forall_mem_map.2 fun word _ =>
    Percent.slash_not_mem_segmentChars word)

theorem decode_words (words : List String) :
    (words.map Percent.segmentChars).mapM Percent.decodeSegment? = some words := by
  induction words with
  | nil => rfl
  | cons word words ih =>
    rw [List.map_cons, List.mapM_cons, Percent.decodeSegment?_segmentChars, ih]
    rfl

/-- One slash is in front of a path, and no more. -/
theorem toList_join_render (h : t.Regular) (base : String) :
    (join base t.render).toList = base.toList ++ (t.path.toList ++ t.tail) := by
  obtain ⟨word, more, hcollection, hword⟩ := h.opens
  have hwords : t.words = word :: (more ++ t.name.toList ++ t.suffix) := by
    rw [words, hcollection, List.cons_append, List.cons_append]
  have hpath : t.path.toList = '/' :: (Percent.segmentChars word ++
      ofSegments ((more ++ t.name.toList ++ t.suffix).map Percent.segmentChars)) := by
    rw [toList_path h, hwords, List.map_cons, ofSegments_cons]
  have hne : Percent.segmentChars word ≠ [] :=
    fun hnil => hword (Percent.segmentChars_injective (t := "") hnil)
  obtain ⟨first, cs, hfirst⟩ := List.exists_cons_of_ne_nil hne
  have hslash := Percent.slash_not_mem_segmentChars word
  rw [hfirst] at hpath hslash
  have hrender : t.render.toList = List.replicate 1 '/' ++ (first :: (cs ++
      ofSegments ((more ++ t.name.toList ++ t.suffix).map Percent.segmentChars) ++ t.tail)) := by
    rw [toList_render, hpath]
    rfl
  have hfirst_ne : some first ≠ some '/' := by
    rintro ⟨⟩
    exact hslash List.mem_cons_self
  rw [toList_join hrender hfirst_ne, hpath]
  rfl

/-- Below a base, a target is asked for by its words and its parameters. -/
theorem Regular.asks (h : t.Regular) (base : String) :
    Asks base (join base t.render) t.words t.query := by
  have hbelow : below base (join base t.render) = t.path.toList ++ t.tail := by
    rw [below, toList_join_render h, List.drop_left]
  have hquestion : '?' ∉ t.path.toList := not_mem_path (by decide) h
  refine ⟨⟨_, (toList_join_render h base).symm⟩, ?_, ?_, ?_, ?_⟩
  · rw [hbelow, List.count_append, List.count_eq_zero_of_not_mem hquestion, Nat.zero_add, tail]
    split
    · rfl
    · rw [List.count_cons_self,
        List.count_eq_zero_of_not_mem (Query.not_mem_chars (by decide) t.query)]
  · rw [hbelow, List.mem_append, not_or]
    exact ⟨not_mem_path (by decide) h, not_mem_tail (by decide) t⟩
  · have hpath : pathBelow base (join base t.render) = t.path.toList := by
      change (below base (join base t.render)).takeWhile (· ≠ '?') = _
      rw [hbelow, takeWhile_part hquestion (opensWith_tail t)]
    rw [hpath, splitAt_path h, List.mapM_cons, decode_words]
    rfl
  · rw [queryBelow, hbelow, dropWhile_part hquestion (opensWith_tail t), tail]
    split
    case isTrue hnone =>
      rw [List.isEmpty_iff.1 hnone]
      rfl
    case isFalse => exact Query.decode?_chars t.query

end Target

end CloudClient.Http
