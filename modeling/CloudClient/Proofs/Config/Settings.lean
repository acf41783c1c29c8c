import CloudClient.Delivery
import CloudClient.Proofs.Http.Path
import Mathlib.Data.List.Induction

/-!
Configurations that are made from settings. Of the settings of one kind the last one counts, and
what comes out is in a form of its own: made once more from what is in it, it is the same.
-/

namespace CloudClient

/-! ### The last of each kind -/

namespace Setting

def clientId? : Setting → Option String
  | .clientId s => some s
  | _ => none

def clientSecret? : Setting → Option String
  | .clientSecret s => some s
  | _ => none

def baseUrl? : Setting → Option String
  | .baseUrl s => some s
  | _ => none

def timeout? : Setting → Option Duration
  | .timeout d => some d
  | _ => none

def retry? : Setting → Option RetryPolicy
  | .retry p => some p
  | _ => none

def maxRetries? : Setting → Option UInt32
  | .maxRetries n => some n
  | _ => none

def tokenMargin? : Setting → Option Duration
  | .tokenMargin d => some d
  | _ => none

def tokenFormat? : Setting → Option TokenFormat
  | .tokenFormat f => some f
  | _ => none

def userAgent? : Setting → Option String
  | .userAgent s => some s
  | _ => none

variable {α : Type}

/-- The last value among settings of one kind. -/
def last? (value? : Setting → Option α) (settings : List Setting) : Option α :=
  (settings.filterMap value?).getLast?

theorem last?_concat (value? : Setting → Option α) (settings : List Setting) (s : Setting) :
    last? value? (settings ++ [s]) = (value? s).or (last? value? settings) := by
  rw [last?, List.filterMap_append, List.getLast?_append]
  cases h : value? s with
  | none => simp [h, last?]
  | some a => simp [h]

/-- Where there is at most one value of a kind, the order of the settings makes no difference. -/
theorem last?_of_perm {settings settings' : List Setting} (hperm : settings'.Perm settings)
    (value? : Setting → Option α) (value : Option α)
    (hone : settings.filterMap value? = value.toList) : last? value? settings' = value := by
  have hvalues := hperm.filterMap value?
  rw [hone] at hvalues
  rw [last?]
  cases value with
  | none => rw [List.perm_nil.1 hvalues, List.getLast?_nil]
  | some a => rw [List.perm_singleton.1 hvalues, List.getLast?_singleton]

end Setting

namespace Draft

open Setting (last?)

/-- A draft is what the last settings of all kinds say. -/
theorem ofSettings_eq (settings : List Setting) : ofSettings settings = {
    clientId := last? Setting.clientId? settings
    clientSecret := last? Setting.clientSecret? settings
    baseUrl := last? Setting.baseUrl? settings
    timeout := last? Setting.timeout? settings
    retry := last? Setting.retry? settings
    maxRetries := last? Setting.maxRetries? settings
    tokenMargin := last? Setting.tokenMargin? settings
    tokenFormat := last? Setting.tokenFormat? settings
    userAgent := last? Setting.userAgent? settings } := by
  induction settings using List.reverseRecOn with
  | nil => rfl
  | append_singleton settings s ih =>
    have hset : ofSettings (settings ++ [s]) = (ofSettings settings).set s :=
      List.foldl_append
    simp only [hset, ih, Setting.last?_concat]
    cases s <;> rfl

end Draft

/-! ### Base URLs -/

/-- The second URL is the first one without the slashes at its end. -/
structure Stripped (url base : String) : Prop where
  slashes : ∃ n, url.toList = base.toList ++ List.replicate n '/'
  last : base.toList.getLast? ≠ some '/'

def Schemed (url : String) : Prop :=
  "http://".toList <+: url.toList ∨ "https://".toList <+: url.toList

variable {url base : String}

theorem stripped_iff : Stripped url base ↔ Draft.withoutTrailingSlashes url = base := by
  constructor
  · rintro ⟨⟨n, hn⟩, hlast⟩
    have hhead : base.toList.reverse.head? ≠ some '/' := by rwa [List.head?_reverse]
    rw [Draft.withoutTrailingSlashes, hn, List.reverse_append, List.reverse_replicate,
      Http.dropWhile_slashes n hhead, List.reverse_reverse, String.ofList_toList]
  · rintro rfl
    obtain ⟨n, rest, hurl, hrest⟩ := Http.exists_slashes url.toList.reverse
    have hbase : (Draft.withoutTrailingSlashes url).toList = rest.reverse := by
      rw [Draft.withoutTrailingSlashes, String.toList_ofList, hurl,
        Http.dropWhile_slashes n hrest]
    refine ⟨⟨n, ?_⟩, ?_⟩
    · rw [hbase, ← List.reverse_replicate, ← List.reverse_append, ← hurl, List.reverse_reverse]
    · rwa [hbase, List.getLast?_reverse]

theorem hasScheme_iff : Draft.hasScheme url = true ↔ Schemed url := by
  rw [Draft.hasScheme, Bool.or_eq_true, List.isPrefixOf_iff_prefix, List.isPrefixOf_iff_prefix]
  exact Iff.rfl

/-- A scheme ends in slashes, so a URL that does not end in one goes on after it. -/
theorem Schemed.exists_host (h : Schemed url) (hlast : url.toList.getLast? ≠ some '/') :
    ∃ scheme host, url = scheme ++ "://" ++ host ∧ (scheme = "http" ∨ scheme = "https") ∧
      host ≠ "" := by
  have hhost (scheme : String) (h : (scheme ++ "://").toList <+: url.toList) :
      ∃ host, url = scheme ++ "://" ++ host ∧ host ≠ "" := by
    obtain ⟨host, hurl⟩ := h
    refine ⟨String.ofList host, ?_, ?_⟩
    · rw [← String.toList_inj, String.toList_append, String.toList_ofList, hurl]
    · intro hempty
      have hnil : host = [] := String.ofList_eq_empty_iff.1 hempty
      rw [hnil, List.append_nil, String.toList_append] at hurl
      rw [← hurl, List.getLast?_append] at hlast
      exact hlast rfl
  rcases h with h | h
  · obtain ⟨host, hurl, hne⟩ := hhost "http" h
    exact ⟨"http", host, hurl, .inl rfl, hne⟩
  · obtain ⟨host, hurl, hne⟩ := hhost "https" h
    exact ⟨"https", host, hurl, .inr rfl, hne⟩

/-! ### What a draft makes -/

namespace Draft

/-- A draft with credentials, and all that is not set filled in. -/
def filled (d : Draft) (credentials : Credentials) : Config where
  credentials
  baseUrl := withoutTrailingSlashes (d.baseUrl.getD Config.defaultBaseUrl)
  timeout := d.timeout.getD (.ofSeconds 30)
  retry := d.retryPolicy
  tokenMargin := d.tokenMargin.getD (.ofSeconds 60)
  tokenFormat := d.tokenFormat.getD .json
  userAgent := d.userAgent.getD Config.defaultUserAgent

variable {d : Draft} {c : Config} {clientId clientSecret : String}

theorem stripped_filled (d : Draft) (credentials : Credentials) :
    Stripped (d.baseUrl.getD Config.defaultBaseUrl) (d.filled credentials).baseUrl :=
  stripped_iff.2 rfl

/-- The checks of a draft with client id and secret, in their order. -/
theorem toConfig_of_given (hid : d.clientId = some clientId)
    (hsecret : d.clientSecret = some clientSecret) :
    d.toConfig =
      if clientId = "" then .error .emptyClientId
      else if clientSecret = "" then .error .emptyClientSecret
      else if hasScheme (d.filled ⟨clientId, clientSecret⟩).baseUrl then
        .ok (d.filled ⟨clientId, clientSecret⟩)
      else .error .badBaseUrl := by
  simp only [toConfig, hid, hsecret, String.isEmpty_iff, Bool.not_eq_true']
  split
  case isTrue => rfl
  case isFalse =>
    split
    case isTrue => rfl
    case isFalse =>
      rw [filled]
      cases hasScheme (withoutTrailingSlashes (d.baseUrl.getD Config.defaultBaseUrl)) <;> rfl

/-- What a draft must have to make a configuration, and the configuration it makes. -/
structure Makes (d : Draft) (c : Config) : Prop where
  clientId : d.clientId = some c.credentials.clientId
  clientSecret : d.clientSecret = some c.credentials.clientSecret
  clientId_ne : c.credentials.clientId ≠ ""
  clientSecret_ne : c.credentials.clientSecret ≠ ""
  schemed : Schemed c.baseUrl
  filled : d.filled c.credentials = c

theorem Makes.stripped (h : d.Makes c) :
    Stripped (d.baseUrl.getD Config.defaultBaseUrl) c.baseUrl := by
  have hstripped := d.stripped_filled c.credentials
  rwa [h.filled] at hstripped

theorem toConfig_eq_ok_iff : d.toConfig = .ok c ↔ d.Makes c := by
  constructor
  · intro h
    cases hid : d.clientId with
    | none =>
      rw [toConfig, hid] at h
      cases h
    | some clientId =>
      cases hsecret : d.clientSecret with
      | none =>
        rw [toConfig, hid, hsecret] at h
        cases h
      | some clientSecret =>
        rw [toConfig_of_given hid hsecret] at h
        split at h
        case isTrue => cases h
        case isFalse hid_ne =>
          split at h
          case isTrue => cases h
          case isFalse hsecret_ne =>
            split at h
            case isTrue hscheme =>
              cases h
              exact ⟨hid, hsecret, hid_ne, hsecret_ne, hasScheme_iff.1 hscheme, rfl⟩
            case isFalse => cases h
  · intro h
    have hscheme := hasScheme_iff.2 h.schemed
    rw [← h.filled] at hscheme
    rw [toConfig_of_given h.clientId h.clientSecret, if_neg h.clientId_ne, if_neg h.clientSecret_ne,
      if_pos hscheme, h.filled]

/-- Nothing but credentials and a base URL with a scheme is needed. -/
theorem exists_toConfig_iff (d : Draft) : (∃ c, d.toConfig = .ok c) ↔
    (∃ clientId, d.clientId = some clientId ∧ clientId ≠ "") ∧
      (∃ clientSecret, d.clientSecret = some clientSecret ∧ clientSecret ≠ "") ∧
      ∃ base, Stripped (d.baseUrl.getD Config.defaultBaseUrl) base ∧ Schemed base := by
  constructor
  · rintro ⟨c, hc⟩
    have h := toConfig_eq_ok_iff.1 hc
    exact ⟨⟨_, h.clientId, h.clientId_ne⟩, ⟨_, h.clientSecret, h.clientSecret_ne⟩,
      ⟨_, h.stripped, h.schemed⟩⟩
  · rintro ⟨⟨clientId, hid, hid_ne⟩, ⟨clientSecret, hsecret, hsecret_ne⟩, base, hbase, hschemed⟩
    have hfilled : (d.filled ⟨clientId, clientSecret⟩).baseUrl = base := stripped_iff.1 hbase
    exact ⟨d.filled ⟨clientId, clientSecret⟩,
      toConfig_eq_ok_iff.2 ⟨hid, hsecret, hid_ne, hsecret_ne, hfilled ▸ hschemed, rfl⟩⟩

end Draft

/-! ### The form of what is made -/

namespace Config

/-- A configuration told as settings, one for each of its fields. -/
def settings (c : Config) : List Setting := [
  .clientId c.credentials.clientId,
  .clientSecret c.credentials.clientSecret,
  .baseUrl c.baseUrl,
  .timeout c.timeout,
  .retry c.retry,
  .tokenMargin c.tokenMargin,
  .tokenFormat c.tokenFormat,
  .userAgent c.userAgent]

/-- The form of configurations that are made from settings. -/
structure Normal (c : Config) : Prop where
  slash : c.baseUrl.toList.getLast? ≠ some '/'
  host : ∃ scheme host, c.baseUrl = scheme ++ "://" ++ host ∧
    (scheme = "http" ∨ scheme = "https") ∧ host ≠ ""
  /-- Its own settings make it again, in any order. -/
  rebuilt : ∀ settings, settings.Perm c.settings → (Draft.ofSettings settings).toConfig = .ok c
  /-- However many slashes stand before a path, the URL has one slash before the rest of it. -/
  joined : ∀ path : String, ∃ m rest, path.toList = List.replicate m '/' ++ rest ∧
    rest.head? ≠ some '/' ∧ ∀ n method body,
      let slashed := String.ofList (List.replicate n '/') ++ path
      (c.endpoint slashed).toList = c.baseUrl.toList ++ '/' :: rest ∧
        (Delivery.request c method slashed body).url = c.endpoint slashed

theorem joined_endpoint (c : Config) (path : String) :
    ∃ m rest, path.toList = List.replicate m '/' ++ rest ∧ rest.head? ≠ some '/' ∧
      ∀ n, (c.endpoint (String.ofList (List.replicate n '/') ++ path)).toList =
        c.baseUrl.toList ++ '/' :: rest := by
  obtain ⟨m, rest, hpath, hrest⟩ := Http.exists_slashes path.toList
  refine ⟨m, rest, hpath, hrest, fun n => ?_⟩
  have hslashed : (String.ofList (List.replicate n '/') ++ path).toList =
      List.replicate (n + m) '/' ++ rest := by
    rw [String.toList_append, String.toList_ofList, hpath, ← List.append_assoc,
      List.replicate_append_replicate]
  exact Http.toList_join hslashed hrest

theorem ofSettings_own {c : Config} {settings : List Setting} (hperm : settings.Perm c.settings) :
    Draft.ofSettings settings = {
      clientId := some c.credentials.clientId
      clientSecret := some c.credentials.clientSecret
      baseUrl := some c.baseUrl
      timeout := some c.timeout
      retry := some c.retry
      maxRetries := none
      tokenMargin := some c.tokenMargin
      tokenFormat := some c.tokenFormat
      userAgent := some c.userAgent } := by
  rw [Draft.ofSettings_eq, Setting.last?_of_perm hperm _ (some c.credentials.clientId) rfl,
    Setting.last?_of_perm hperm _ (some c.credentials.clientSecret) rfl,
    Setting.last?_of_perm hperm _ (some c.baseUrl) rfl,
    Setting.last?_of_perm hperm _ (some c.timeout) rfl,
    Setting.last?_of_perm hperm _ (some c.retry) rfl,
    Setting.last?_of_perm hperm Setting.maxRetries? none rfl,
    Setting.last?_of_perm hperm _ (some c.tokenMargin) rfl,
    Setting.last?_of_perm hperm _ (some c.tokenFormat) rfl,
    Setting.last?_of_perm hperm _ (some c.userAgent) rfl]

end Config

namespace Draft

/-- What is made has its slashes stripped off already, and every other field set. -/
theorem Makes.again {d : Draft} {c : Config} (h : d.Makes c) {settings : List Setting}
    (hperm : settings.Perm c.settings) : (ofSettings settings).Makes c := by
  have hbase : withoutTrailingSlashes c.baseUrl = c.baseUrl :=
    stripped_iff.1 ⟨⟨0, (List.append_nil _).symm⟩, h.stripped.last⟩
  rw [Config.ofSettings_own hperm]
  -- the number of repetitions is part of the policy now, and is not set apart from it
  refine ⟨rfl, rfl, h.clientId_ne, h.clientSecret_ne, h.schemed, ?_⟩
  simp only [Draft.filled, Option.getD_some, hbase, retryPolicy]

theorem Makes.normal {d : Draft} {c : Config} (h : d.Makes c) : c.Normal := by
  refine ⟨h.stripped.last, h.schemed.exists_host h.stripped.last, ?_, ?_⟩
  · exact fun settings hperm => toConfig_eq_ok_iff.2 (h.again hperm)
  · intro path
    obtain ⟨m, rest, hpath, hrest, hjoin⟩ := c.joined_endpoint path
    exact ⟨m, rest, hpath, hrest, fun n _ _ => ⟨hjoin n, rfl⟩⟩

end Draft

/-- Settings make a configuration just when credentials and a base URL with a scheme are among them,
and what they make is in a form that making it again does not change. -/
theorem settings_make_normal (settings : List Setting) :
    ((∃ c, (Draft.ofSettings settings).toConfig = .ok c) ↔
      (∃ clientId, Setting.last? Setting.clientId? settings = some clientId ∧ clientId ≠ "") ∧
        (∃ clientSecret, Setting.last? Setting.clientSecret? settings = some clientSecret ∧
          clientSecret ≠ "") ∧
        ∃ base, Stripped
          ((Setting.last? Setting.baseUrl? settings).getD Config.defaultBaseUrl) base ∧
          Schemed base) ∧
      ∀ c, (Draft.ofSettings settings).toConfig = .ok c → c.Normal := by
  refine ⟨?_, fun c hc => (Draft.toConfig_eq_ok_iff.1 hc).normal⟩
  rw [Draft.exists_toConfig_iff, Draft.ofSettings_eq]

/-- Of two secrets the second one counts; slashes at the end of a base URL do not. -/
theorem settings_make_normal_stripped :
    ∃ c, (Draft.ofSettings [.clientSecret "", .clientId "id", .baseUrl "https://localhost/v1//",
      .clientSecret "secret"]).toConfig = .ok c ∧ c.Normal := by
  obtain ⟨hmade, hnormal⟩ := settings_make_normal [.clientSecret "", .clientId "id",
    .baseUrl "https://localhost/v1//", .clientSecret "secret"]
  have hbase : Stripped "https://localhost/v1//" "https://localhost/v1" :=
    ⟨⟨2, by decide⟩, by decide⟩
  obtain ⟨c, hc⟩ := hmade.2 ⟨⟨"id", rfl, by decide⟩, ⟨"secret", rfl, by decide⟩,
    "https://localhost/v1", hbase, .inr (by decide)⟩
  exact ⟨c, hc, hnormal c hc⟩

end CloudClient
