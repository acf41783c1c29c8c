import CloudClient.Delivery
import CloudClient.Proofs.Program.Conduct

/-!
Which requests carry a token: all those of calls, with the token they were given, and none of those
that ask for one. A success rejects no token.
-/

namespace CloudClient

namespace Http

theorem Headers.lookup_set_self (name value : String) (h : Headers) :
    (h.set name value).lookup name = some value := by
  induction h with
  | nil => simp [Headers.set]
  | cons p rest ih =>
    obtain ⟨n, v⟩ := p
    simp only [Headers.set]
    split
    · exact List.lookup_cons_self
    · rename_i hn
      rw [List.lookup_cons, ih, beq_false_of_ne (Ne.symm hn)]

theorem Request.bearer?_header (r : Request) (accessToken : String) :
    (r.header "Authorization" (Token.authorization accessToken)).bearer? = some accessToken := by
  have hl : (r.header "Authorization" (Token.authorization accessToken)).headers.lookup
      "Authorization" = some (Token.authorization accessToken) := Headers.lookup_set_self ..
  have ht : (Token.authorization accessToken).toList = "Bearer ".toList ++ accessToken.toList :=
    String.toList_append
  have hp : "Bearer ".toList.isPrefixOf ("Bearer ".toList ++ accessToken.toList) = true :=
    List.isPrefixOf_iff_prefix.2 (List.prefix_append ..)
  rw [bearer?, hl, Option.bind_eq_bind, Option.bind_some, ht, if_pos hp,
    show 7 = "Bearer ".toList.length from rfl, List.drop_left, String.ofList_toList]

theorem Response.status_ne_of_isSuccess {r : Response} (h : r.isSuccess = true) :
    r.status ≠ 401 := by
  intro hs
  rw [isSuccess, hs] at h
  contradiction

end Http

@[simp] theorem bearer?_authorized (r : Http.Request) (accessToken : String) :
    (Delivery.authorized r accessToken).bearer? = some accessToken :=
  r.bearer?_header accessToken

@[simp] theorem asksForToken_authorized (r : Http.Request) (accessToken : String) :
    (Delivery.authorized r accessToken).asksForToken = false := by
  simp [Http.Request.asksForToken]

theorem bearer?_grant (c : Config) (g : Grant) : (g.request c).bearer? = none := by
  have hl : (g.request c).headers.lookup "Authorization" = none := by
    have htype : ("Authorization" == "Content-Type") = false := by decide
    have haccept : ("Authorization" == "Accept") = false := by decide
    simp only [Grant.request, List.lookup_cons, htype, haccept, List.lookup_nil]
  rw [Http.Request.bearer?, hl, Option.bind_eq_bind, Option.bind_none]

@[simp] theorem asksForToken_grant (c : Config) (g : Grant) :
    (g.request c).asksForToken = true := by
  rw [Http.Request.asksForToken, bearer?_grant]
  rfl

end CloudClient
