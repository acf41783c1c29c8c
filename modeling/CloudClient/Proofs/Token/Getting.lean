import CloudClient.Proofs.Token.Acquiring

/-!
Getting a token, as seen from inside: what is done with the cache in hand, and what is in it
afterwards. A token that is asked for takes at least one request.
-/

namespace CloudClient

namespace World

variable {σ α : Type} {w w' v : World σ} {e : Effect} {x : e.Answer}

/-- Only those who take the cache or give it back change it, or the line for it. -/
theorem frame_answer? (he : e.Aside) (h : w.answer? e = some (x, v)) :
    v.cache = w.cache ∧ v.line = w.line := by
  have hf := finishes_of_finish? h
  have hline : (w.start 0 e).1.line = w.line := by
    rw [start_line, if_neg]
    rintro rfl
    exact he
  constructor
  · rw [cache_answer? h, Effect.leaving_of_ne]
    rintro y rfl
    exact he
  · rw [hf.line]
    cases e with
    | release y => exact he.elim
    | _ => exact hline

theorem Runs.frame {p : Program α} {h : List Event} {a : α} (H : w.Runs p h a w')
    (hp : ∀ e ∈ h, e.effect.Aside) : w'.cache = w.cache ∧ w'.line = w.line := by
  induction H with
  | done w a => exact ⟨rfl, rfl⟩
  | ask hx _ ih =>
    obtain ⟨he, hh⟩ := List.forall_mem_cons.1 hp
    obtain ⟨hcache, hline⟩ := frame_answer? he hx
    obtain ⟨hcache', hline'⟩ := ih hh
    exact ⟨hcache'.trans hcache, hline'.trans hline⟩

end World

namespace TokenCache

variable {σ : Type} {c : Config} {w w' : World σ} {h : List Event}

/-! ### Requests -/

theorem sending_rounds (p : RetryPolicy) (r : Http.Request) (started : Nat) :
    World.Rounds (σ := σ) p (fun () => Error.isTransient)
      (fun () => do return (← Program.request r, ())) started (fun _ _ _ _ => True)
      (fun h _ _ => Event.requests h ≠ []) := by
  refine .of_ends (Q := fun h _ => Event.requests h ≠ []) (fun _ H _ => ?_)
    fun _ _ _ _ _ _ => trivial
  obtain ⟨x, rfl, _⟩ := runs_attempt_request H
  simp [Event.requests, Event.sent?]

theorem requests_of_fetch {g : Grant} {r : Except Failure Token}
    (H : w.Runs (fetch c g) h r w') : Event.requests h ≠ [] := by
  obtain ⟨result, asking, look, rfl, H₁, _, _⟩ := runs_fetch H
  have hsent : Event.requests asking ≠ [] :=
    (sending_rounds c.retry (g.request c) w.now).repeating trivial (World.runs_retrying H₁)
  rw [Event.requests_append]
  exact List.append_ne_nil_of_left_ne_nil hsent _

theorem requests_of_renew {refreshToken : Option String} {r : Except Failure Token}
    (H : w.Runs (renew c refreshToken) h r w') : Event.requests h ≠ [] := by
  rcases renew_cases H with ⟨g, H, _⟩ | ⟨token, e, v, h₁, h₂, _, rfl, H₁, _⟩
  · exact requests_of_fetch H
  · rw [Event.requests_append]
    exact List.append_ne_nil_of_left_ne_nil (requests_of_fetch H₁) _

/-! ### The cache -/

/-- The content of the cache after a token was asked for. -/
def kept (cached : Option Token) : Except Failure Token → Option Token
  | .ok t => some t
  | .error _ => cached

theorem runs_usable? {cached found : Option Token} (H : w.Runs (usable? c cached) h found w') :
    w' = w ∧ World.Idle h ∧
      found = cached.filter (·.outlives (w.timeOfDay w.now) c.tokenMargin) := by
  cases cached with
  | none =>
    obtain ⟨rfl, rfl, rfl⟩ := World.runs_done_iff.1 H
    exact ⟨rfl, World.idle_nil, rfl⟩
  | some t =>
    obtain ⟨x, v, h', hx, rfl, H'⟩ := World.runs_ask_iff.1 H
    rw [World.answer?_timeOfDay] at hx
    cases hx
    obtain ⟨rfl, rfl, rfl⟩ := World.runs_done_iff.1 H'
    exact ⟨rfl, List.forall_mem_singleton.2 (.inr (.inl rfl)), rfl⟩

/-- The cached token is given out after a look at the time of day. -/
structure Reused (c : Config) (w : World σ) (h : List Event) (r : Except Failure Token)
    (w' : World σ) (look : List Event) (t : Token) : Prop where
  history : h = ⟨.acquire, w.cache, w.now, w.now⟩ ::
    (look ++ [⟨.release w.cache, (), w.now, w.now⟩])
  look : World.Idle look
  cached : w.cache = some t
  usable : t.outlives (w.timeOfDay w.now) c.tokenMargin = true
  result : r = .ok t
  world : w' = w

/-- A new token is asked for with the cache in hand, and kept in it. -/
structure Renewed (c : Config) (w : World σ) (h : List Event) (r : Except Failure Token)
    (w' : World σ) (look asking : List Event) (v : World σ) : Prop where
  history : h = ⟨.acquire, w.cache, w.now, w.now⟩ ::
    (look ++ (asking ++ [⟨.release (kept w.cache r), (), v.now, v.now⟩]))
  look : World.Idle look
  unusable : ∀ t, w.cache = some t → t.outlives (w.timeOfDay w.now) c.tokenMargin = false
  renewal : World.Runs { w with line := [0] } (renew c (w.cache.bind (·.refreshToken))) asking r v
  world : w' = { v with cache := kept w.cache r, line := [] }

theorem runs_give {cached : Option Token} {r a : Except Failure Token} (hl : w.line = [0])
    (H : w.Runs (do Program.release cached; return r) h a w') :
    a = r ∧ h = [⟨.release cached, (), w.now, w.now⟩] ∧
      w' = { w with cache := cached, line := [] } := by
  obtain ⟨_, v, h', hx, rfl, H'⟩ := World.runs_ask_iff.1 H
  obtain ⟨rfl, rfl, rfl⟩ := World.runs_done_iff.1 H'
  rw [World.answer?_release, hl] at hx
  cases hx
  exact ⟨rfl, rfl, rfl⟩

/-- The cached token is given out, or a new one is asked for. -/
theorem runs_get_cases {r : Except Failure Token} (hl : w.line = []) (H : w.Runs (get c) h r w') :
    (∃ look t, Reused c w h r w' look t) ∨ ∃ look asking v, Renewed c w h r w' look asking v := by
  obtain ⟨cached, u, h₀, hx, rfl, H₀⟩ := World.runs_ask_iff.1 H
  rw [World.answer?_acquire w hl] at hx
  cases hx
  change World.Runs _ (usable? c w.cache >>= _) h₀ r w' at H₀
  obtain ⟨found, u, h₁, h₂, rfl, H₁, H₂⟩ := World.runs_bind_iff.1 H₀
  obtain ⟨rfl, hlook, hfound⟩ := runs_usable? H₁
  cases hf : found with
  | some t =>
    rw [hf] at H₂ hfound
    obtain ⟨ht, hlives⟩ := Option.filter_eq_some_iff.1 hfound.symm
    obtain ⟨rfl, rfl, rfl⟩ := runs_give rfl H₂
    exact .inl ⟨h₁, t, rfl, hlook, ht, hlives, rfl, by rw [← hl]⟩
  | none =>
    rw [hf] at H₂ hfound
    obtain ⟨result, v, h₃, h₄, rfl, H₃, H₄⟩ := World.runs_bind_iff.1 H₂
    have hline : v.line = [0] := (H₃.frame (H₃.bounded (bounded_renew c _)).1).2
    have hout : r = result ∧ h₄ = [⟨.release (kept w.cache result), (), v.now, v.now⟩] ∧
        w' = { v with cache := kept w.cache result, line := [] } := by
      cases result with
      | ok t => exact runs_give hline H₄
      | error f => exact runs_give hline H₄
    obtain ⟨rfl, rfl, rfl⟩ := hout
    refine .inr ⟨h₁, h₃, v, rfl, hlook, fun t ht => ?_, H₃, rfl⟩
    rw [ht, Option.filter_some] at hfound
    exact Bool.eq_false_iff.2 fun hlives => by simp [hlives] at hfound

/-! ### Discarding a token -/

/-- The cache is given back at once, without the token if that is in it. -/
theorem discarded_of_runs {accessToken : String} {u : Unit} (hl : w.line = [])
    (H : w.Runs (discard accessToken) h u w') :
    let kept := if w.cache.any (·.accessToken = accessToken) then none else w.cache
    h = [⟨.acquire, w.cache, w.now, w.now⟩, ⟨.release kept, (), w.now, w.now⟩] ∧
      w' = { w with cache := kept, line := [] } := by
  obtain ⟨cached, v, h', hx, rfl, H'⟩ := World.runs_ask_iff.1 H
  rw [World.answer?_acquire w hl] at hx
  cases hx
  obtain ⟨_, v', h'', hx', rfl, H''⟩ := World.runs_ask_iff.1 H'
  rw [World.answer?_release] at hx'
  cases hx'
  obtain ⟨rfl, _, rfl⟩ := World.runs_done_iff.1 H''
  exact ⟨rfl, rfl⟩

end TokenCache

end CloudClient
