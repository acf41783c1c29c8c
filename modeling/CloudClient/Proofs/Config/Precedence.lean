import CloudClient.Client
import CloudClient.Proofs.Config.Settings

/-!
Which settings count. Of the settings that are made with one setter only the last one does, so
settings may be made in any order that leaves those of each setter in theirs; and a client is made
of the same configuration as its settings make without it.
-/

namespace CloudClient

/-! ### Setters -/

/-- What a setting is for. -/
inductive Setter where
  | clientId
  | clientSecret
  | baseUrl
  | timeout
  | retry
  | maxRetries
  | tokenMargin
  | tokenFormat
  | userAgent
  deriving DecidableEq, Repr

namespace Setting

def setter : Setting → Setter
  | .clientId _ => .clientId
  | .clientSecret _ => .clientSecret
  | .baseUrl _ => .baseUrl
  | .timeout _ => .timeout
  | .retry _ => .retry
  | .maxRetries _ => .maxRetries
  | .tokenMargin _ => .tokenMargin
  | .tokenFormat _ => .tokenFormat
  | .userAgent _ => .userAgent

/-- The settings that are made with a setter, in their order. -/
def madeWith (k : Setter) (settings : List Setting) : List Setting :=
  settings.filter (·.setter = k)

theorem getLast?_madeWith_concat (k : Setter) (settings : List Setting) (s : Setting) :
    (madeWith k (settings ++ [s])).getLast? =
      if s.setter = k then some s else (madeWith k settings).getLast? := by
  rw [madeWith, List.filter_append, List.getLast?_append]
  by_cases hs : s.setter = k
  · simp [hs]
  · simp [hs, madeWith]

variable {α : Type}

/-- The value of a kind that comes last is that of the last setting made with its setter. -/
theorem last?_eq_bind {value? : Setting → Option α} {k : Setter}
    (hvalue : ∀ s, (value? s).isSome = decide (s.setter = k)) (settings : List Setting) :
    last? value? settings = (madeWith k settings).getLast?.bind value? := by
  induction settings using List.reverseRecOn with
  | nil => rfl
  | append_singleton settings s ih =>
    rw [last?_concat, getLast?_madeWith_concat, ih]
    split
    case isTrue hs =>
      have hsome : (value? s).isSome = true := (hvalue s).trans (decide_eq_true hs)
      obtain ⟨a, ha⟩ := Option.isSome_iff_exists.1 hsome
      rw [Option.bind_some, ha, Option.some_or]
    case isFalse hs =>
      have hnone : (value? s).isSome = false := (hvalue s).trans (decide_eq_false hs)
      rw [Option.isSome_eq_false_iff, Option.isNone_iff_eq_none] at hnone
      rw [hnone, Option.none_or]

end Setting

/-! ### Order -/

/-- The same settings in another order, with those of each setter in the order that they had. -/
structure Reordered (settings settings' : List Setting) : Prop where
  perm : settings'.Perm settings
  kept : ∀ k, Setting.madeWith k settings' = Setting.madeWith k settings

namespace Draft

open Setting (last? madeWith)

/-- Settings that have the same last one for each setter come to the same. -/
theorem ofSettings_congr {settings settings' : List Setting}
    (h : ∀ k, (madeWith k settings').getLast? = (madeWith k settings).getLast?) :
    ofSettings settings' = ofSettings settings := by
  have hlast {α : Type} (value? : Setting → Option α) (k : Setter)
      (hvalue : ∀ s, (value? s).isSome = decide (s.setter = k)) :
      last? value? settings' = last? value? settings := by
    rw [Setting.last?_eq_bind hvalue, Setting.last?_eq_bind hvalue, h]
  rw [ofSettings_eq, ofSettings_eq,
    hlast Setting.clientId? .clientId fun s => by cases s <;> rfl,
    hlast Setting.clientSecret? .clientSecret fun s => by cases s <;> rfl,
    hlast Setting.baseUrl? .baseUrl fun s => by cases s <;> rfl,
    hlast Setting.timeout? .timeout fun s => by cases s <;> rfl,
    hlast Setting.retry? .retry fun s => by cases s <;> rfl,
    hlast Setting.maxRetries? .maxRetries fun s => by cases s <;> rfl,
    hlast Setting.tokenMargin? .tokenMargin fun s => by cases s <;> rfl,
    hlast Setting.tokenFormat? .tokenFormat fun s => by cases s <;> rfl,
    hlast Setting.userAgent? .userAgent fun s => by cases s <;> rfl]

/-- The number of repetitions that is set apart stands in for that of the policy, and for nothing
else of it. -/
theorem retryPolicy_eq (d : Draft) : d.retryPolicy =
    { d.retry.getD .standard with
      maxRetries := d.maxRetries.getD (d.retry.getD .standard).maxRetries } := by
  rw [retryPolicy]
  cases d.maxRetries <;> rfl

end Draft

/-! ### Clients -/

namespace ClientDraft

/-- What is set for a client is set for its configuration. -/
theorem foldl_set (c : ClientDraft) (settings : List Setting) :
    settings.foldl set c = { c with draft := settings.foldl Draft.set c.draft } := by
  induction settings generalizing c with
  | nil => rfl
  | cons s settings ih => exact ih (c.set s)

theorem toClient_provided (d : Draft) :
    toClient ⟨d, .provided⟩ = d.toConfig.map (⟨·, .provided⟩) := by
  rw [toClient]
  cases d.toConfig <;> rfl

end ClientDraft

/-- Settings make what the last one for each setter says, or fail as that does, so that those for
different setters can change places; the number of repetitions is the one that is set apart, where
one is, and all else of the policy is left as it is set. A client that is set up in the same way,
and is given its transport at any point, has that configuration, or fails in the same way. -/
theorem last_settings_count (settings : List Setting) :
    (∀ settings', (∀ k, (Setting.madeWith k settings').getLast? =
        (Setting.madeWith k settings).getLast?) →
      (Draft.ofSettings settings').toConfig = (Draft.ofSettings settings).toConfig) ∧
    (∀ settings', Reordered settings settings' →
      (Draft.ofSettings settings').toConfig = (Draft.ofSettings settings).toConfig) ∧
    (∀ c, (Draft.ofSettings settings).toConfig = .ok c →
      let policy := (Setting.last? Setting.retry? settings).getD .standard
      c.retry = { policy with
        maxRetries := (Setting.last? Setting.maxRetries? settings).getD policy.maxRetries }) ∧
    ∀ before after, settings = before ++ after →
      (after.foldl ClientDraft.set (ClientDraft.ofSettings before).provide).toClient =
        (Draft.ofSettings settings).toConfig.map (⟨·, .provided⟩) := by
  refine ⟨fun settings' h => ?_, fun settings' h => ?_, fun c hc => ?_, fun before after h => ?_⟩
  · rw [Draft.ofSettings_congr h]
  · rw [Draft.ofSettings_congr fun k => congrArg List.getLast? (h.kept k)]
  · have hfilled := (Draft.toConfig_eq_ok_iff.1 hc).filled
    rw [← hfilled, Draft.filled, Draft.retryPolicy_eq, Draft.ofSettings_eq]
  · have hdraft : (ClientDraft.ofSettings before).provide =
        ⟨Draft.ofSettings before, .provided⟩ := by
      rw [ClientDraft.ofSettings, ClientDraft.foldl_set]
      rfl
    rw [hdraft, ClientDraft.foldl_set, ClientDraft.toClient_provided, h, Draft.ofSettings,
      Draft.ofSettings, List.foldl_append]

/-- A policy with a number of repetitions of its own. -/
def RetryPolicy.patient : RetryPolicy :=
  { RetryPolicy.standard with maxRetries := 9, maxElapsed := .ofSeconds 600 }

/-- The number of repetitions is set before the policy or after it, and a client id is set twice. -/
theorem last_settings_count_of_overridden :
    let first : List Setting := [.maxRetries 7, .clientId "old", .clientId "id",
      .clientSecret "secret", .retry .patient]
    let second : List Setting := [.clientSecret "secret", .retry .patient, .maxRetries 7,
      .clientId "old", .clientId "id"]
    Reordered first second ∧ ∃ c,
      (Draft.ofSettings first).toConfig = .ok c ∧ (Draft.ofSettings second).toConfig = .ok c ∧
        c.credentials.clientId = "id" ∧ c.retry = { RetryPolicy.patient with maxRetries := 7 } ∧
        (first.foldl ClientDraft.set (ClientDraft.ofSettings []).provide).toClient =
          .ok ⟨c, .provided⟩ := by
  intro first second
  obtain ⟨-, hreordered, hretry, hclient⟩ := last_settings_count first
  have horder : Reordered first second := {
    perm := (List.perm_append_comm :
      (second.take 2 ++ first.take 3).Perm (first.take 3 ++ second.take 2))
    kept := fun k => by cases k <;> rfl }
  have hbase : Stripped Config.defaultBaseUrl Config.defaultBaseUrl :=
    ⟨⟨0, (List.append_nil _).symm⟩, by decide⟩
  obtain ⟨c, hc⟩ := (Draft.exists_toConfig_iff (.ofSettings first)).2
    ⟨⟨"id", rfl, by decide⟩, ⟨"secret", rfl, by decide⟩, _, hbase, .inr (by decide)⟩
  have hid : some "id" = some c.credentials.clientId := (Draft.toConfig_eq_ok_iff.1 hc).clientId
  refine ⟨horder, c, hc, (hreordered second horder).trans hc, (Option.some.inj hid).symm,
    hretry c hc, ?_⟩
  rw [hclient [] first rfl, hc]
  rfl

end CloudClient
