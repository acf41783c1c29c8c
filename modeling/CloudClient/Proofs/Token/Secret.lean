import CloudClient.Client
import CloudClient.Machine.Script
import CloudClient.Proofs.Delivery.Rejection
import CloudClient.Proofs.Machine.Alike
import CloudClient.Service

/-!
The client secret. It goes into the bodies of requests for a token with the credentials and nowhere
else: with another secret, all calls do and give the same, whatever the server says and in whatever
order they take turns, as long as the server replies the same to those requests.
-/

namespace CloudClient

open Http (Method Request Response)

/-- A configuration with another client secret. -/
def Config.withSecret (c : Config) (clientSecret : String) : Config :=
  { c with credentials := { c.credentials with clientSecret } }

/-- Requests that are the same, but for the body of a request for a token with the credentials. -/
inductive SameButSecret (c : Config) : Request → Request → Prop where
  | same (r : Request) : SameButSecret c r r
  | credentials (body : Bytes) : SameButSecret c (Grant.clientCredentials.request c)
      ((Grant.clientCredentials.request c).withBody body)

/-! ### Programs with another secret -/

section Programs

variable (c : Config) (clientSecret : String)

theorem sameButSecret_grant (g : Grant) :
    SameButSecret c (g.request c) (g.request (c.withSecret clientSecret)) := by
  cases g with
  | clientCredentials => exact .credentials _
  | refreshToken token => exact .same _

theorem TokenCache.alike_fetch (g : Grant) :
    (fetch c g).Alike (SameButSecret c) (fetch (c.withSecret clientSecret) g) := by
  have hrequest : (Program.request (g.request c)).Alike (SameButSecret c)
      (Program.request (g.request (c.withSecret clientSecret))) :=
    .send (sameButSecret_grant c clientSecret g) fun _ => .refl _
  exact (Program.Alike.retrying hrequest).map _

theorem TokenCache.alike_renew (refreshToken : Option String) :
    (renew c refreshToken).Alike (SameButSecret c)
      (renew (c.withSecret clientSecret) refreshToken) := by
  cases refreshToken with
  | none => exact alike_fetch c clientSecret .clientCredentials
  | some token =>
    refine (alike_fetch c clientSecret (.refreshToken token)).bind ?_
    rintro ((e | _) | t)
    · exact alike_fetch c clientSecret .clientCredentials
    · exact .done _
    · exact .done _

theorem TokenCache.alike_get :
    (get c).Alike (SameButSecret c) (get (c.withSecret clientSecret)) := by
  refine .ask .acquire fun cached => ?_
  refine (Program.Alike.refl (usable? c cached)).bind ?_
  rintro (_ | t)
  · exact (alike_renew c clientSecret (cached.bind (·.refreshToken))).map _
  · exact .refl _

theorem Delivery.alike_once (r : Request) :
    (once c r).Alike (SameButSecret c) (once (c.withSecret clientSecret) r) :=
  (TokenCache.alike_get c clientSecret).map _

theorem Delivery.alike_attempt (r : Request) (x : Progress) :
    (attempt c r x).Alike (SameButSecret c) (attempt (c.withSecret clientSecret) r x) := by
  refine (alike_once c clientSecret r).bind ?_
  rintro (result | f | ⟨accessToken, e⟩)
  · exact .refl _
  · exact .refl _
  · dsimp only
    split
    · exact .refl _
    · refine (Program.Alike.refl (TokenCache.discard accessToken)).bind fun _ => ?_
      exact (alike_once c clientSecret r).map _

theorem Delivery.alike_run (r : Request) :
    (run c r).Alike (SameButSecret c) (run (c.withSecret clientSecret) r) :=
  (Program.Alike.repeating (alike_attempt c clientSecret r) {}).map _

theorem Operation.alike_run {α : Type} (o : Operation α) :
    (o.run c).Alike (SameButSecret c) (o.run (c.withSecret clientSecret)) :=
  (Delivery.alike_run c clientSecret
    (Delivery.request c o.method o.path (o.body.map Json.encode))).map _

end Programs

/-! ### Sessions with another secret -/

/-- A call, whose result comes with it. -/
def Call.program (c : Config) (k : Call) : Program ((k : Call) × Except Failure k.Answer) := do
  return ⟨k, ← k.operation.run c⟩

/-- The client secret is in the bodies of requests for a token with the credentials and nowhere
else. Configurations that differ in it are described in the same way; and a session of calls with
one of them is possible with the other, with the same results, the same cache all the time, and the
same deeds at the same times but for those bodies, if the server is blind to them. -/
theorem secret_only_in_token_bodies {σ : Type} (c : Config) (clientSecret : String) (w : World σ)
    (hblind : w.server.Blind (SameButSecret c)) (cues : List (Cue Call)) :
    (c.withSecret clientSecret).describe = c.describe ∧
    (∀ transport, (Client.mk (c.withSecret clientSecret) transport).describe =
      (Client.mk c transport).describe) ∧
    Option.Rel (fun p p' =>
        (∀ i, p'.1.result? i = p.1.result? i) ∧ p'.1.world.now = p.1.world.now ∧
          p'.1.world.cache = p.1.world.cache ∧
          List.Forall₂ (Occurrence.Alike (SameButSecret c)) p.2 p'.2)
      (Scene.session? (Call.program c) cues (⟨[], w⟩, []))
      (Scene.session? (Call.program (c.withSecret clientSecret)) cues (⟨[], w⟩, [])) := by
  refine ⟨rfl, fun _ => rfl, ?_⟩
  have hsent : w.Alike (SameButSecret c) w :=
    ⟨rfl, List.forall₂_same.2 fun x _ => ⟨rfl, .same x.request⟩⟩
  have hprogram (k : Call) : (Call.program c k).Alike (SameButSecret c)
      (Call.program (c.withSecret clientSecret) k) :=
    (Operation.alike_run c clientSecret k.operation).map _
  have hopening (α : Type) : Scene.Matches (SameButSecret c) ((⟨[], w⟩ : Scene σ α), [])
      (⟨[], w⟩, []) := ⟨⟨.nil, hsent⟩, .nil⟩
  have hmatches := Scene.matches_session? (hopening _) hblind .same hprogram cues
  generalize Scene.session? (Call.program c) cues (⟨[], w⟩, []) = x at hmatches ⊢
  generalize Scene.session? (Call.program _) cues (⟨[], w⟩, []) = x' at hmatches ⊢
  cases hmatches with
  | none => exact .none
  | some hp =>
    have hworld := hp.scene.world.same
    exact .some ⟨hp.scene.result?, (congrArg World.now hworld :),
      (congrArg World.cache hworld :), hp.chronicle⟩

/-- Scripts say what is replied to a request at a URL. -/
theorem Script.blind_server (t : Timer) (c : Config) :
    (Script.server t).Blind (SameButSecret c) := by
  rintro state r r' (_ | body) <;> exact ⟨rfl, rfl⟩

/-- Two operations whose first token is taken back get a second one with the credentials. -/
def revokedSession : List (Cue Call) :=
  let turns := List.replicate 7 0 ++ List.replicate 5 1 ++ List.replicate 7 0 ++
    List.replicate 5 1 ++ [0, 1]
  [.enter (.volumes (.delete "vol-1" true)), .enter (.sshKeys (.delete "key-1"))] ++
    turns.flatMap fun i => [.move (.start i), .move (.finish i)]

theorem secret_only_in_token_bodies_of_revoked :
    let ending (c : Config) := Scene.session? (Call.program c) revokedSession (⟨[], .revoking⟩, [])
    World.revoking.server.Blind (SameButSecret .plain) ∧
    (ending .plain).any (fun p => decide (p.1.Over ∧ p.1.world.sent.length = 6)) = true ∧
    (ending .plain).map (·.1.world.sent) ≠
      (ending (Config.plain.withSecret "another")).map (·.1.world.sent) ∧
    Option.Rel (fun p p' =>
        (∀ i, p'.1.result? i = p.1.result? i) ∧ p'.1.world.now = p.1.world.now ∧
          p'.1.world.cache = p.1.world.cache ∧
          List.Forall₂ (Occurrence.Alike (SameButSecret .plain)) p.2 p'.2)
      (ending .plain) (ending (Config.plain.withSecret "another")) :=
  have hblind : World.revoking.server.Blind (SameButSecret .plain) :=
    Script.blind_server .standard .plain
  ⟨hblind, by decide +kernel, by decide +kernel,
    (secret_only_in_token_bodies .plain "another" .revoking hblind revokedSession).2.2⟩

end CloudClient
