import CloudClient.Proofs.Http.Form
import CloudClient.Proofs.Json.OtherMembers
import CloudClient.Token.Grant

/-!
What a request for a token says. Its terms come as an object of texts or as a form, and whoever
reads either of them finds the same parameters, each of them once and with the text that was given.
-/

namespace CloudClient

namespace Json

def text? : Json → Option String
  | .str s => some s
  | _ => none

/-- The members of an object of texts, with all that are repeated. -/
def texts? (bytes : Bytes) : Option (List (String × String)) :=
  match Json.read bytes with
  | (_, true) => none
  | (n, false) =>
    match n.value levelLimit with
    | .ok (.obj ms) => ms.mapM fun (key, j) => j.text?.map fun text => (key, text)
    | _ => none

variable {params : List (String × String)}

/-- A parameter as a member of an object. -/
def ofText (p : String × String) : String × Json :=
  (p.1, .str p.2)

theorem keys_map_ofText (params : List (String × String)) :
    (params.map ofText).map Prod.fst = params.map Prod.fst :=
  List.map_map

theorem mapM_text? (params : List (String × String)) :
    ((params.map ofText).mapM fun (key, j) => j.text?.map fun text => (key, text)) =
      some params := by
  induction params with
  | nil => rfl
  | cons p params ih =>
    rw [List.map_cons, List.mapM_cons, ih]
    rfl

theorem sortedMembers_map_ofText (params : List (String × String)) (acc : List (String × Json)) :
    sortedMembers (params.map ofText) acc =
      (params.map ofText).foldl (fun acc m => setSorted m.1 m.2 acc) acc := by
  induction params generalizing acc with
  | nil => rfl
  | cons p params ih => exact ih (setSorted p.1 (.str p.2) acc)

/-- Texts under keys that differ are put into the order of the keys. -/
theorem sorted_map_ofText (hkeys : (params.map Prod.fst).Nodup) :
    (Json.obj (params.map ofText)).sorted =
      .obj ((params.mergeSort fun p q => p.1 ≤ q.1).map ofText) := by
  have hcollect : sortedMembers (params.map ofText) [] = collect (params.map ofText) :=
    sortedMembers_map_ofText params []
  rw [← keys_map_ofText] at hkeys
  have horder : (params.mergeSort fun p q => p.1 ≤ q.1).map ofText =
      inKeyOrder (params.map ofText) :=
    List.map_mergeSort fun _ _ _ _ => rfl
  rw [sorted, hcollect, collect_eq_inKeyOrder hkeys, horder]

theorem texts?_encode (params : List (String × String)) :
    texts? (Json.obj (params.map ofText)).encode = some params := by
  have hfits : (Json.obj (params.map ofText)).Fits 1 :=
    .obj <| List.forall_mem_map.2 fun p _ => .str p.2
  obtain ⟨n, hread, hn⟩ := exists_read hfits.survives
  have hvalue : n.value levelLimit = .ok (.obj (params.map ofText)) :=
    hn.value _ (Nat.le_trans hfits.depth_le (by decide))
  rw [texts?, hread]
  dsimp only
  rw [hvalue]
  exact mapM_text? params

end Json

namespace Grant

/-- The terms of a grant: its kind, and what it is granted on. -/
def terms (c : Credentials) : Grant → List (String × String)
  | .clientCredentials => [("grant_type", "client_credentials"), ("client_id", c.clientId),
      ("client_secret", c.clientSecret)]
  | .refreshToken token => [("grant_type", "refresh_token"), ("refresh_token", token)]

theorem params_eq_terms (c : Credentials) (g : Grant) : g.params c = g.terms c := by
  cases g <;> rfl

theorem nodup_terms (c : Credentials) (g : Grant) : ((g.terms c).map Prod.fst).Nodup := by
  cases g <;> simp [terms]

/-- As an object, the parameters come in the order of their names. -/
theorem texts?_jsonBody {params : List (String × String)} (hkeys : (params.map Prod.fst).Nodup) :
    Json.texts? (jsonBody params) = some (params.mergeSort fun p q => p.1 ≤ q.1) := by
  change Json.texts? (Json.obj (params.map Json.ofText)).sorted.encode = _
  rw [Json.sorted_map_ofText hkeys, Json.texts?_encode]

theorem toList_pair (p : String × String) :
    (Percent.segment p.1 ++ "=" ++ Percent.segment p.2).toList =
      Http.Query.pairWith Percent.segmentChars p := by
  simp only [Percent.segment, String.toList_append, String.toList_ofList, List.append_assoc]
  rfl

/-- As a form, they come as they are. -/
theorem ofBytes?_formBody (params : List (String × String)) :
    Http.Query.ofBytes? (formBody params) = some params := by
  have hbody : formBody params = Utf8.encode ("&".intercalate
      (params.map fun p => Percent.segment p.1 ++ "=" ++ Percent.segment p.2)) := rfl
  have hparts : (params.map fun p => Percent.segment p.1 ++ "=" ++ Percent.segment p.2).map
      String.toList = params.map (Http.Query.pairWith Percent.segmentChars) := by
    rw [List.map_map]
    exact List.map_congr_left fun p _ => toList_pair p
  rw [Http.Query.ofBytes?, hbody, Utf8.decode?_encode, Option.bind_some,
    String.toList_intercalate, hparts]
  exact Http.Query.decode?_intercalate Http.Query.legible_segmentChars params

/-- The same entries under keys that differ give the same look-ups. -/
theorem lookup_of_perm {sent said : List (String × String)} (h : sent.Perm said)
    (hkeys : (said.map Prod.fst).Nodup) (name : String) : sent.lookup name = said.lookup name := by
  have hsent : (sent.map Prod.fst).Nodup := (h.map Prod.fst).nodup_iff.2 hkeys
  cases hfound : said.lookup name with
  | none =>
    refine Json.lookup_eq_none_of_notMem fun hmem => ?_
    have hsome := Json.isSome_lookup_iff.2 ((h.map Prod.fst).mem_iff.1 hmem)
    rw [hfound] at hsome
    cases hsome
  | some text => exact Json.lookup_of_mem hsent (h.mem_iff.2 (Json.mem_of_lookup hfound))

/-- An object and a form for one grant say the same: its terms, none of them twice and nothing
else. -/
theorem encodings_agree (c : Credentials) (g : Grant) :
    ∃ sent, Json.texts? (g.body .json c) = some sent ∧
      Http.Query.ofBytes? (g.body .form c) = some (g.terms c) ∧
      sent.Perm (g.terms c) ∧ ((g.terms c).map Prod.fst).Nodup ∧
      ∀ name, sent.lookup name = (g.terms c).lookup name := by
  have hkeys := nodup_terms c g
  have hperm : ((g.terms c).mergeSort fun p q => p.1 ≤ q.1).Perm (g.terms c) :=
    List.mergeSort_perm _ _
  refine ⟨(g.terms c).mergeSort fun p q => p.1 ≤ q.1, ?_, ?_, hperm, hkeys,
    lookup_of_perm hperm hkeys⟩
  · rw [body, params_eq_terms]
    exact texts?_jsonBody hkeys
  · rw [body, params_eq_terms]
    exact ofBytes?_formBody (g.terms c)

end Grant

end CloudClient
