import CloudClient.Machine.Script
import CloudClient.Proofs.Service.Targets
import Mathlib.Data.List.Basic

/-!
The endpoint for tokens. Scripted servers know it by the end of the URL alone; below any base, and
whatever names and parameters are given, no call has a URL that ends in the same way.
-/

namespace CloudClient

/-! ### The end of a URL -/

namespace Http

theorem ofSegments_concat (segments : List (List Char)) (segment : List Char) :
    ofSegments (segments ++ [segment]) = ofSegments segments ++ '/' :: segment := by
  rw [ofSegments, List.flatMap_append, List.flatMap_singleton]
  rfl

/-- What stands after the last slash, and before it. -/
theorem eq_of_last_segment {front front' segment segment' : List Char} (hs : '/' ∉ segment)
    (hs' : '/' ∉ segment') (h : front ++ '/' :: segment = front' ++ '/' :: segment') :
    front = front' ∧ segment = segment' := by
  have hparts := congrArg (Query.splitAt '/') h
  rw [Query.splitAt_append_sep, Query.splitAt_append_sep, Query.splitAt_of_not_mem hs,
    Query.splitAt_of_not_mem hs'] at hparts
  obtain rfl : segment = segment' := List.singleton_inj.1 (List.append_inj_right' hparts rfl)
  exact ⟨List.append_cancel_right h, rfl⟩

namespace Target

variable {t : Target}

/-- None of the words around a name is one of these. -/
def Avoids (words : List String) (t : Target) : Prop :=
  ∀ word ∈ t.collection ++ t.suffix, word ∉ words

theorem avoids_mk {words collection suffix : List String} {name : Option String} {query : Query}
    (h : ∀ word ∈ collection ++ suffix, word ∉ words) :
    Avoids words ⟨collection, name, suffix, query⟩ :=
  h

/-- When no word around a name is the last one of all, that is the name, and it stands below a word
of the collection. -/
theorem Regular.exists_collection (h : t.Regular) {before : List String} {last : String}
    (hlast : last ∉ t.collection ++ t.suffix) (hwords : t.words = before ++ [last]) :
    ∃ front word, before = front ++ [word] ∧ word ∈ t.collection := by
  rw [List.mem_append, not_or] at hlast
  rw [words] at hwords
  rcases t.suffix.eq_nil_or_concat' with hsuffix | ⟨others, word, hsuffix⟩
  · rw [hsuffix, List.append_nil] at hwords
    cases hname : t.name with
    | none =>
      rw [hname, Option.toList_none, List.append_nil] at hwords
      exact absurd (hwords ▸ List.mem_append_right _ List.mem_cons_self) hlast.1
    | some name =>
      rw [hname] at hwords
      have hcollection : t.collection = before := List.append_inj_left' hwords rfl
      obtain ⟨opening, more, hopens, -⟩ := h.opens
      rcases t.collection.eq_nil_or_concat' with hnil | ⟨front, word, hconcat⟩
      · rw [hnil] at hopens
        cases hopens
      · refine ⟨front, word, hcollection.symm.trans hconcat, ?_⟩
        rw [hconcat]
        exact List.mem_append_right _ List.mem_cons_self
  · rw [hsuffix, ← List.append_assoc] at hwords
    obtain rfl : word = last := List.singleton_inj.1 (List.append_inj_right' hwords rfl)
    exact absurd (hsuffix ▸ List.mem_append_right _ List.mem_cons_self) hlast.2

/-- The end of a URL: the words before the last one, and that with the query. -/
theorem Regular.exists_end (h : t.Regular) (base : String) :
    ∃ before word, t.words = before ++ [word] ∧
      (join base t.render).toList =
        base.toList ++ ofSegments (before.map Percent.segmentChars) ++
          '/' :: (Percent.segmentChars word ++ t.tail) := by
  obtain ⟨opening, more, hopens, -⟩ := h.opens
  rcases t.words.eq_nil_or_concat' with hnil | ⟨before, word, hwords⟩
  · rw [words, hopens] at hnil
    cases hnil
  · refine ⟨before, word, hwords, ?_⟩
    rw [toList_join_render h, toList_path h, hwords, List.map_append, List.map_singleton,
      ofSegments_concat]
    simp only [List.append_assoc, List.cons_append]

/-- Below a base, no URL ends in two words which need no escapes when neither of them is around its
name: a name is one word only, and a query has a question mark in front. -/
theorem Regular.not_suffix (h : t.Regular) {first last : String} (havoids : t.Avoids [first, last])
    (hfirst : Percent.segmentChars first = first.toList)
    (hlast : Percent.segmentChars last = last.toList) (base : String) :
    ¬ '/' :: (first.toList ++ '/' :: last.toList) <:+ (join base t.render).toList := by
  rintro ⟨front, hfront⟩
  obtain ⟨before, word, hwords, hurl⟩ := h.exists_end base
  rw [← hfront, ← List.cons_append, ← List.append_assoc, ← hfirst, ← hlast] at hurl
  have hword : '/' ∉ Percent.segmentChars word ++ t.tail := by
    rw [List.mem_append, not_or]
    exact ⟨Percent.slash_not_mem_segmentChars word, not_mem_tail (by decide) t⟩
  obtain ⟨hbefore, hend⟩ :=
    eq_of_last_segment (Percent.slash_not_mem_segmentChars last) hword hurl
  -- no question mark is in the last word, so there is no query
  have htail : t.tail = [] := by
    refine (opensWith_tail t).resolve_right ?_
    rintro ⟨rest, hrest⟩
    have hmark := Percent.query_not_mem_segmentChars last
    rw [hend, hrest] at hmark
    exact hmark (List.mem_append_right _ List.mem_cons_self)
  rw [htail, List.append_nil] at hend
  obtain rfl : last = word := Percent.segmentChars_injective hend
  have hlast_not : last ∉ t.collection ++ t.suffix := fun hmem =>
    havoids last hmem (List.mem_cons_of_mem _ List.mem_cons_self)
  obtain ⟨init, word, rfl, hmem⟩ := h.exists_collection hlast_not hwords
  rw [List.map_append, List.map_singleton, ofSegments_concat, ← List.append_assoc] at hbefore
  obtain ⟨-, hfirst_eq⟩ := eq_of_last_segment (Percent.slash_not_mem_segmentChars first)
    (Percent.slash_not_mem_segmentChars word) hbefore
  obtain rfl : first = word := Percent.segmentChars_injective hfirst_eq
  exact havoids first (List.mem_append_left _ hmem) List.mem_cons_self

end Target

end Http

/-! ### Calls -/

/-- No word around a name is one of those at the end of the URL for tokens. -/
theorem Call.avoids_token (k : Call) : k.operation.target.Avoids ["oauth2", "token"] := by
  cases k with
  | instances c | volumes c | sshKeys c | startupScripts c | clusters c | catalogue c | containers c
  | jobs c =>
    cases c <;> exact Http.Target.avoids_mk (by decide)

namespace Script

theorem isTokenUrl_iff {url : String} :
    isTokenUrl url = true ↔ Config.tokenPath.toList <:+ url.toList :=
  List.isSuffixOf_iff_suffix

theorem isTokenUrl_tokenUrl (c : Config) : isTokenUrl c.tokenUrl = true := by
  have hpath : Config.tokenPath.toList = List.replicate 1 '/' ++ "oauth2/token".toList := rfl
  rw [isTokenUrl_iff, Config.tokenUrl, Config.endpoint, Http.toList_join hpath (by decide)]
  exact List.suffix_append _ _

theorem isTokenUrl_url (c : Config) (k : Call) : isTokenUrl (k.operation.url c) = false := by
  refine Bool.eq_false_iff.2 fun htoken => ?_
  exact k.regular.not_suffix k.avoids_token (by decide +kernel) (by decide +kernel) c.baseUrl
    (isTokenUrl_iff.1 htoken)

end Script

end CloudClient
