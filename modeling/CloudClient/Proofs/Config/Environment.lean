import CloudClient.Config.Environment
import CloudClient.Proofs.Config.Settings
import CloudClient.Proofs.Text.Unsigned

/-!
Which environments make a configuration, and which one. The others are refused for the first of
their offences, in the order in which variables are read and settings are checked.
-/

namespace CloudClient

/-- What the variables of an environment mean. -/
structure Values where
  clientId : String
  clientSecret : String
  baseUrl : Option String
  /-- In seconds. -/
  timeout : Option Nat
  maxRetries : Option Nat
  deriving DecidableEq, Repr

namespace Values

def settings (v : Values) : List Setting :=
  [.clientId v.clientId, .clientSecret v.clientSecret]
    ++ (v.baseUrl.map Setting.baseUrl).toList
    ++ (v.timeout.map fun n => Setting.timeout (.ofSeconds (.ofNat n))).toList
    ++ (v.maxRetries.map fun n => Setting.maxRetries (.ofNat n)).toList

/-- Values that a configuration can be made of. -/
structure Usable (v : Values) : Prop where
  clientId_ne : v.clientId ≠ ""
  clientSecret_ne : v.clientSecret ≠ ""
  base : ∃ base, Stripped (v.baseUrl.getD Config.defaultBaseUrl) base ∧ Schemed base

theorem ofSettings_settings (v : Values) : Draft.ofSettings v.settings = {
    clientId := some v.clientId
    clientSecret := some v.clientSecret
    baseUrl := v.baseUrl
    timeout := v.timeout.map fun n => .ofSeconds (.ofNat n)
    maxRetries := v.maxRetries.map .ofNat } := by
  obtain ⟨clientId, clientSecret, baseUrl, timeout, maxRetries⟩ := v
  cases baseUrl <;> cases timeout <;> cases maxRetries <;> rfl

theorem exists_toConfig_iff (v : Values) :
    (∃ c, (Draft.ofSettings v.settings).toConfig = .ok c) ↔ v.Usable := by
  rw [Draft.exists_toConfig_iff, v.ofSettings_settings]
  constructor
  · rintro ⟨⟨_, ⟨⟩, hid⟩, ⟨_, ⟨⟩, hsecret⟩, hbase⟩
    exact ⟨hid, hsecret, hbase⟩
  · exact fun h => ⟨⟨_, rfl, h.clientId_ne⟩, ⟨_, rfl, h.clientSecret_ne⟩, h.base⟩

end Values

namespace Environment

/-- A variable is not set, or it is set to a text that writes a number below the bound. -/
def Number (env : Environment) (bound : Nat) (name : String) (n? : Option Nat) : Prop :=
  Option.Rel (fun text n => Text.Writes text n ∧ n < bound) (env name) n?

/-- The variables of an environment have these meanings. -/
structure Says (env : Environment) (v : Values) : Prop where
  clientId : env "DATACRUNCH_CLIENT_ID" = some v.clientId
  clientSecret : env "DATACRUNCH_CLIENT_SECRET" = some v.clientSecret
  baseUrl : env "DATACRUNCH_BASE_URL" = v.baseUrl
  timeout : env.Number (2 ^ 64) "DATACRUNCH_TIMEOUT" v.timeout
  maxRetries : env.Number (2 ^ 32) "DATACRUNCH_MAX_RETRIES" v.maxRetries

/-- What is wrong with an environment, by the order in which it comes to light. -/
inductive Offence (env : Environment) : Nat → ConfigFault → Prop
  | noClientId : env "DATACRUNCH_CLIENT_ID" = none →
      Offence env 0 (.unsetVariable "DATACRUNCH_CLIENT_ID")
  | noClientSecret : env "DATACRUNCH_CLIENT_SECRET" = none →
      Offence env 1 (.unsetVariable "DATACRUNCH_CLIENT_SECRET")
  | timeout {text : String} : env "DATACRUNCH_TIMEOUT" = some text →
      (∀ n < 2 ^ 64, ¬ Text.Writes text n) → Offence env 2 (.badVariable "DATACRUNCH_TIMEOUT" text)
  | maxRetries {text : String} : env "DATACRUNCH_MAX_RETRIES" = some text →
      (∀ n < 2 ^ 32, ¬ Text.Writes text n) →
      Offence env 3 (.badVariable "DATACRUNCH_MAX_RETRIES" text)
  | emptyClientId : env "DATACRUNCH_CLIENT_ID" = some "" → Offence env 4 .emptyClientId
  | emptyClientSecret : env "DATACRUNCH_CLIENT_SECRET" = some "" → Offence env 5 .emptyClientSecret
  | baseUrl : (∀ base, Stripped ((env "DATACRUNCH_BASE_URL").getD Config.defaultBaseUrl) base →
      ¬ Schemed base) → Offence env 6 .badBaseUrl

def Clear (env : Environment) (i : Nat) : Prop :=
  ∀ j < i, ∀ f, ¬ env.Offence j f

/-- An offence before which there is no other. -/
structure First (env : Environment) (i : Nat) (f : ConfigFault) : Prop where
  offence : env.Offence i f
  clear : env.Clear i

variable {env : Environment} {bound i j : Nat} {name : String} {f g : ConfigFault} {v : Values}

theorem Offence.unique (hf : env.Offence i f) (hg : env.Offence i g) : f = g := by
  cases hf with
  | noClientId | noClientSecret | emptyClientId | emptyClientSecret | baseUrl => cases hg; rfl
  | timeout htext | maxRetries htext =>
    cases hg with | _ htext' => rw [Option.some.inj (htext.symm.trans htext')]

theorem First.unique (hf : env.First i f) (hg : env.First j g) : f = g := by
  rcases Nat.lt_trichotomy i j with hlt | rfl | hlt
  · exact absurd hf.offence (hg.clear i hlt f)
  · exact hf.offence.unique hg.offence
  · exact absurd hg.offence (hf.clear j hlt g)

/-! ### Numbers -/

theorem Number.number?_eq {n? : Option Nat} (h : env.Number bound name n?) :
    env.number? bound name = .ok n? := by
  rw [Number] at h
  rw [number?]
  generalize env name = value? at h
  cases h with
  | none => rfl
  | some h =>
    have hread := Text.unsigned?_trim_eq_some_iff.2 h
    simp only [hread]

theorem number?_eq_error {text : String} (htext : env name = some text)
    (hnone : ∀ n < bound, ¬ Text.Writes text n) :
    env.number? bound name = .error (.badVariable name text) := by
  have hread : Text.unsigned? bound (Text.trim text) = none := by
    refine Option.eq_none_iff_forall_ne_some.2 fun n hn => ?_
    obtain ⟨hwrites, hlt⟩ := Text.unsigned?_trim_eq_some_iff.1 hn
    exact hnone n hlt hwrites
  simp only [number?, htext, hread]

theorem exists_number_or (env : Environment) (bound : Nat) (name : String) :
    (∃ n?, env.Number bound name n?) ∨
      ∃ text, env name = some text ∧ ∀ n < bound, ¬ Text.Writes text n := by
  rcases Option.eq_none_or_eq_some (env name) with hname | ⟨text, hname⟩
  · refine .inl ⟨none, ?_⟩
    rw [Number, hname]
    exact .none
  · by_cases hwrites : ∃ n < bound, Text.Writes text n
    · obtain ⟨n, hlt, hn⟩ := hwrites
      refine .inl ⟨some n, ?_⟩
      rw [Number, hname]
      exact .some ⟨hn, hlt⟩
    · exact .inr ⟨text, hname, fun n hlt hn => hwrites ⟨n, hlt, hn⟩⟩

theorem Number.exists_writes {n? : Option Nat} {text : String} (h : env.Number bound name n?)
    (htext : env name = some text) : ∃ n < bound, Text.Writes text n := by
  rw [Number, htext] at h
  cases h with
  | some h => exact ⟨_, h.2, h.1⟩

/-! ### What an environment leads to -/

theorem Says.settingsOf_eq (h : env.Says v) : Config.settingsOf env = .ok v.settings := by
  simp only [Config.settingsOf, required, h.clientId, h.clientSecret, h.timeout.number?_eq,
    h.maxRetries.number?_eq, h.baseUrl]
  rfl

/-- Values make what they would make as settings, and nothing else is set. -/
theorem Says.ofEnvironment_eq (h : env.Says v) :
    Config.ofEnvironment env = (Draft.ofSettings v.settings).toConfig := by
  rw [Config.ofEnvironment, h.settingsOf_eq]
  rfl

/-- Once the variables are read, what is left to go wrong are the values. -/
theorem Says.le_of_offence (h : env.Says v) (hoffence : env.Offence i f) : 4 ≤ i := by
  cases hoffence with
  | noClientId hnone => exact absurd (h.clientId.symm.trans hnone) nofun
  | noClientSecret hnone => exact absurd (h.clientSecret.symm.trans hnone) nofun
  | timeout htext hnone =>
    obtain ⟨n, hlt, hwrites⟩ := h.timeout.exists_writes htext
    exact absurd hwrites (hnone n hlt)
  | maxRetries htext hnone =>
    obtain ⟨n, hlt, hwrites⟩ := h.maxRetries.exists_writes htext
    exact absurd hwrites (hnone n hlt)
  | emptyClientId | emptyClientSecret | baseUrl => decide

theorem Says.not_offence (h : env.Says v) (husable : v.Usable) : ¬ env.Offence i f := by
  intro hoffence
  have hle := h.le_of_offence hoffence
  cases hoffence with
  | noClientId | noClientSecret | timeout | maxRetries => exact absurd hle (by decide)
  | emptyClientId hempty =>
    exact husable.clientId_ne (Option.some.inj (h.clientId.symm.trans hempty))
  | emptyClientSecret hempty =>
    exact husable.clientSecret_ne (Option.some.inj (h.clientSecret.symm.trans hempty))
  | baseUrl hbad =>
    obtain ⟨base, hstripped, hschemed⟩ := husable.base
    rw [← h.baseUrl] at hstripped
    exact hbad base hstripped hschemed

theorem Clear.succ (h : env.Clear i) (hi : ∀ f, ¬ env.Offence i f) : env.Clear (i + 1) := by
  intro j hj
  rcases Nat.lt_succ_iff_lt_or_eq.1 hj with hlt | rfl
  · exact h j hlt
  · exact hi

/-- The variables are read one after the other, as long as nothing is wrong with them. -/
theorem says_or_first (env : Environment) :
    (∃ v, env.Says v) ∨ ∃ i f, env.First i f ∧ Config.settingsOf env = .error f := by
  -- what passes is no offence, so whatever fails next is the first
  have hclear₀ : env.Clear 0 := nofun
  rcases Option.eq_none_or_eq_some (env "DATACRUNCH_CLIENT_ID") with hid | ⟨clientId, hid⟩
  · refine .inr ⟨0, _, ⟨.noClientId hid, hclear₀⟩, ?_⟩
    simp only [Config.settingsOf, required, hid]
    rfl
  have hclear₁ : env.Clear 1 := hclear₀.succ fun
    | _, .noClientId hnone => absurd (hid.symm.trans hnone) nofun
  rcases Option.eq_none_or_eq_some (env "DATACRUNCH_CLIENT_SECRET") with
    hsecret | ⟨clientSecret, hsecret⟩
  · refine .inr ⟨1, _, ⟨.noClientSecret hsecret, hclear₁⟩, ?_⟩
    simp only [Config.settingsOf, required, hid, hsecret]
    rfl
  have hclear₂ : env.Clear 2 := hclear₁.succ fun
    | _, .noClientSecret hnone => absurd (hsecret.symm.trans hnone) nofun
  rcases env.exists_number_or (2 ^ 64) "DATACRUNCH_TIMEOUT" with
    ⟨timeout, htimeout⟩ | ⟨text, htext, hnone⟩
  case inr =>
    refine .inr ⟨2, _, ⟨.timeout htext hnone, hclear₂⟩, ?_⟩
    simp only [Config.settingsOf, required, hid, hsecret, number?_eq_error htext hnone]
    rfl
  have hclear₃ : env.Clear 3 := hclear₂.succ fun
    | _, .timeout htext hnone =>
      have ⟨n, hlt, hwrites⟩ := htimeout.exists_writes htext
      hnone n hlt hwrites
  rcases env.exists_number_or (2 ^ 32) "DATACRUNCH_MAX_RETRIES" with
    ⟨maxRetries, hretries⟩ | ⟨text, htext, hnone⟩
  case inr =>
    refine .inr ⟨3, _, ⟨.maxRetries htext hnone, hclear₃⟩, ?_⟩
    simp only [Config.settingsOf, required, hid, hsecret, htimeout.number?_eq,
      number?_eq_error htext hnone]
    rfl
  exact .inl ⟨⟨clientId, clientSecret, env "DATACRUNCH_BASE_URL", timeout, maxRetries⟩,
    ⟨hid, hsecret, rfl, htimeout, hretries⟩⟩

/-- The values are checked one after the other, when all variables are read. -/
theorem Says.usable_or_first (h : env.Says v) :
    v.Usable ∨ ∃ i f, env.First i f ∧ (Draft.ofSettings v.settings).toConfig = .error f := by
  have hclear₄ : env.Clear 4 := fun j hj f hoffence =>
    absurd (h.le_of_offence hoffence) (by omega)
  -- the branches of this equation are taken one by one
  have hmade := Draft.toConfig_of_given (congrArg Draft.clientId v.ofSettings_settings)
    (congrArg Draft.clientSecret v.ofSettings_settings)
  by_cases hid : v.clientId = ""
  · rw [if_pos hid] at hmade
    exact .inr ⟨4, _, ⟨.emptyClientId (hid ▸ h.clientId), hclear₄⟩, hmade⟩
  have hclear₅ : env.Clear 5 := hclear₄.succ fun
    | _, .emptyClientId hempty => hid (Option.some.inj (h.clientId.symm.trans hempty))
  rw [if_neg hid] at hmade
  by_cases hsecret : v.clientSecret = ""
  · rw [if_pos hsecret] at hmade
    exact .inr ⟨5, _, ⟨.emptyClientSecret (hsecret ▸ h.clientSecret), hclear₅⟩, hmade⟩
  have hclear₆ : env.Clear 6 := hclear₅.succ fun
    | _, .emptyClientSecret hempty => hsecret (Option.some.inj (h.clientSecret.symm.trans hempty))
  rw [if_neg hsecret] at hmade
  by_cases hbase : ∃ base, Stripped (v.baseUrl.getD Config.defaultBaseUrl) base ∧ Schemed base
  · exact .inl ⟨hid, hsecret, hbase⟩
  have hnone : ∀ base, Stripped (v.baseUrl.getD Config.defaultBaseUrl) base → ¬ Schemed base :=
    fun base hstripped hschemed => hbase ⟨base, hstripped, hschemed⟩
  have hstripped := (Draft.ofSettings v.settings).stripped_filled ⟨v.clientId, v.clientSecret⟩
  rw [congrArg Draft.baseUrl v.ofSettings_settings] at hstripped
  rw [if_neg fun hscheme => hnone _ hstripped (hasScheme_iff.1 hscheme)] at hmade
  rw [← h.baseUrl] at hnone
  exact .inr ⟨6, _, ⟨.baseUrl hnone, hclear₆⟩, hmade⟩

/-- An environment is refused for its first offence, and it has none just when what it says is
usable. -/
theorem usable_or_first (env : Environment) :
    (∃ v, env.Says v ∧ v.Usable) ∨ ∃ i f, env.First i f ∧ Config.ofEnvironment env = .error f := by
  rcases env.says_or_first with ⟨v, hsaid⟩ | ⟨i, f, hfirst, hsettings⟩
  · rcases hsaid.usable_or_first with husable | ⟨i, f, hfirst, hmade⟩
    · exact .inl ⟨v, hsaid, husable⟩
    · exact .inr ⟨i, f, hfirst, hsaid.ofEnvironment_eq.trans hmade⟩
  · refine .inr ⟨i, f, hfirst, ?_⟩
    rw [Config.ofEnvironment, hsettings]
    rfl

theorem exists_ofEnvironment_iff (env : Environment) :
    (∃ c, Config.ofEnvironment env = .ok c) ↔ ∃ v, env.Says v ∧ v.Usable := by
  constructor
  · rintro ⟨c, hc⟩
    rcases env.usable_or_first with husable | ⟨i, f, _, herror⟩
    · exact husable
    · exact absurd (hc.symm.trans herror) nofun
  · rintro ⟨v, hsaid, husable⟩
    rw [hsaid.ofEnvironment_eq]
    exact v.exists_toConfig_iff.2 husable

theorem ofEnvironment_eq_error_iff (env : Environment) (f : ConfigFault) :
    Config.ofEnvironment env = .error f ↔ ∃ i, env.First i f := by
  constructor
  · intro h
    rcases env.usable_or_first with husable | ⟨i, g, hfirst, herror⟩
    · obtain ⟨c, hc⟩ := (exists_ofEnvironment_iff env).2 husable
      exact absurd (hc.symm.trans h) nofun
    · rw [Except.error.inj (h.symm.trans herror)]
      exact ⟨i, hfirst⟩
  · rintro ⟨i, hfirst⟩
    rcases env.usable_or_first with ⟨v, hsaid, husable⟩ | ⟨j, g, hfirst', herror⟩
    · exact absurd hfirst.offence (hsaid.not_offence husable)
    · rw [hfirst.unique hfirst', herror]

end Environment

/-- An environment makes a configuration just when it says what one can be made of; it makes the
one that these values make as settings. Any other is refused for its first offence. -/
theorem environment_read (env : Environment) :
    ((∃ c, Config.ofEnvironment env = .ok c) ↔ ∃ v, env.Says v ∧ v.Usable) ∧
      (∀ v, env.Says v →
        Config.ofEnvironment env = (Draft.ofSettings v.settings).toConfig) ∧
      ∀ f, Config.ofEnvironment env = .error f ↔ ∃ i, env.First i f :=
  ⟨env.exists_ofEnvironment_iff, fun _ => Environment.Says.ofEnvironment_eq,
    env.ofEnvironment_eq_error_iff⟩

/-- Blanks, a sign and zeros in front of a number make no difference. -/
theorem environment_read_numbers :
    ∃ c, Config.ofEnvironment (.ofList [("DATACRUNCH_CLIENT_ID", "id"),
        ("DATACRUNCH_CLIENT_SECRET", "secret"), ("DATACRUNCH_BASE_URL", "https://localhost//"),
        ("DATACRUNCH_TIMEOUT", "\u3000+0012\n"), ("DATACRUNCH_MAX_RETRIES", "07")]) = .ok c ∧
      (Draft.ofSettings [.clientId "id", .clientSecret "secret", .baseUrl "https://localhost//",
        .timeout (.ofSeconds 12), .maxRetries 7]).toConfig = .ok c := by
  let env : Environment := .ofList [("DATACRUNCH_CLIENT_ID", "id"),
    ("DATACRUNCH_CLIENT_SECRET", "secret"), ("DATACRUNCH_BASE_URL", "https://localhost//"),
    ("DATACRUNCH_TIMEOUT", "\u3000+0012\n"), ("DATACRUNCH_MAX_RETRIES", "07")]
  let v : Values := ⟨"id", "secret", some "https://localhost//", some 12, some 7⟩
  have htimeout : Text.Writes "\u3000+0012\n" 12 :=
    ⟨['\u3000'], ['+'], ['0', '0', '1', '2'], ['\n'], by decide, List.all_eq_true.1 rfl,
      List.all_eq_true.1 rfl, .inr rfl, by decide, List.all_eq_true.1 rfl, by decide⟩
  have hretries : Text.Writes "07" 7 :=
    ⟨[], [], ['0', '7'], [], by decide, nofun, nofun, .inl rfl, by decide, List.all_eq_true.1 rfl,
      by decide⟩
  have hsaid : env.Says v :=
    ⟨rfl, rfl, rfl, .some ⟨htimeout, by decide⟩, .some ⟨hretries, by decide⟩⟩
  have husable : v.Usable :=
    ⟨by decide, by decide, "https://localhost", ⟨⟨2, by decide⟩, by decide⟩, .inr (by decide)⟩
  obtain ⟨hmade, hsame, -⟩ := environment_read env
  obtain ⟨c, hc⟩ := hmade.2 ⟨v, hsaid, husable⟩
  exact ⟨c, hc, (hsame v hsaid).symm.trans hc⟩

end CloudClient
