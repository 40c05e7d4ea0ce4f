import Uptrakit.Net.Host

/-!
# Base URLs of release providers

`validate_provider_api_base_url` (`crates/shared/types/src/provider_validation.rs`) and the
validation of a Forgejo configuration (`crates/plugins/releases/forgejo/src/config.rs`), which
repeats its checks.  Both are to reject a URL whose host is not public.

The host goes through `is_private_host` as text.  So a private IPv4 host is rejected, and an
IPv6 host never is (`PrivateIpv6Url.passesUrlChecks`).
-/

namespace Uptrakit.Net

/-! ## The shared checks -/

inductive ProviderValidationError
  | invalidUrl
  | mustUseHttps
  | missingHost
  | privateHost

def validateProviderApiBaseUrl (crate : UrlCrate) (value : String) :
    Except ProviderValidationError Unit :=
  match crate.parse value with
  | .error _ => .error .invalidUrl
  | .ok parsed =>
    if parsed.scheme ≠ "https" then .error .mustUseHttps
    else
      match crate.hostStr parsed with
      | none => .error .missingHost
      | some host => if isPrivateHost host then .error .privateHost else .ok ()

/-! ## Forgejo -/

structure InvalidField where
  field : String
  message : String
  deriving DecidableEq

def maxVersionPrefixLength : ℕ := 256

/-- `char::is_control`: the category `Cc` of Unicode. -/
def isControl (c : Char) : Bool := c.toNat ≤ 0x1F || (0x7F ≤ c.toNat && c.toNat ≤ 0x9F)

def validateVersionPrefix (versionPrefix fieldName : String) : Except String Unit :=
  if versionPrefix.isEmpty then
    .error (fieldName ++ " must not be empty (omit the field instead)")
  else if versionPrefix ≠ Text.trim versionPrefix || versionPrefix.toList.any isControl then
    .error (fieldName ++
      " must not contain leading/trailing whitespace or control characters")
  else if maxVersionPrefixLength < Text.len versionPrefix then
    .error (fieldName ++ " exceeds maximum length of " ++ toString maxVersionPrefixLength ++
      " bytes (" ++ toString (Text.len versionPrefix) ++ " bytes)")
  else .ok ()

/-- What the validation reads of a `ForgejoConfig`. -/
structure ForgejoConfig where
  apiBaseUrl : Option String
  tagPrefix : Option String
  assetPatterns : List String

/-- The patterns are regular expressions.  `regexError` is the error of `Regex::new`. -/
def validateAssetPatterns (regexError : String → Option String) :
    List String → Except InvalidField Unit
  | [] => .ok ()
  | pattern :: patterns =>
    match regexError pattern with
    | some e =>
      .error ⟨"asset_patterns", "invalid regex pattern '" ++ pattern ++ "': " ++ e⟩
    | none => validateAssetPatterns regexError patterns

/-- The checks of `validate_inner` after those on the URL. -/
def ForgejoConfig.validateRest (config : ForgejoConfig) (regexError : String → Option String) :
    Except InvalidField Unit :=
  match config.tagPrefix.map (validateVersionPrefix · "tag_prefix") with
  | some (.error e) => .error ⟨"tag_prefix", e⟩
  | _ => validateAssetPatterns regexError config.assetPatterns

def ForgejoConfig.validateInner (config : ForgejoConfig) (crate : UrlCrate)
    (regexError : String → Option String) : Except InvalidField Unit :=
  match config.apiBaseUrl with
  | none => .error ⟨"api_base_url", "is required"⟩
  | some url =>
    match crate.parse url with
    | .error e => .error ⟨"api_base_url", "invalid URL: " ++ e⟩
    | .ok parsed =>
      if parsed.scheme ≠ "https" then .error ⟨"api_base_url", "must use https"⟩
      else
        match crate.hostStr parsed with
        | none => .error ⟨"api_base_url", "must include a host"⟩
        | some host =>
          if isPrivateHost host then
            .error ⟨"api_base_url", "must not point to private/loopback addresses"⟩
          else config.validateRest regexError

/-! ## What is accepted -/

/-- Both validations accept the URL: it is an `https` URL whose host is not found private. -/
def PassesUrlChecks (crate : UrlCrate) (value : String) : Prop :=
  ∃ url host, crate.parse value = .ok url ∧ url.scheme = "https" ∧ url.host = some host ∧
    isPrivateHost (crate.hostText host) = false

theorem validateProviderApiBaseUrl_ok_iff (crate value) :
    validateProviderApiBaseUrl crate value = .ok () ↔ PassesUrlChecks crate value := by
  unfold validateProviderApiBaseUrl PassesUrlChecks UrlCrate.hostStr
  cases crate.parse value with
  | error => simp
  | ok url =>
    by_cases hs : url.scheme = "https"
    · cases hh : url.host with
      | none | some => simp [hs, hh]
    · simp [hs]

theorem ForgejoConfig.validateInner_ok_iff (config : ForgejoConfig) (crate : UrlCrate)
    (regexError : String → Option String) :
    config.validateInner crate regexError = .ok () ↔
      (∃ value, config.apiBaseUrl = some value ∧ PassesUrlChecks crate value) ∧
        config.validateRest regexError = .ok () := by
  unfold ForgejoConfig.validateInner PassesUrlChecks UrlCrate.hostStr
  cases hb : config.apiBaseUrl with
  | none => simp
  | some value =>
    cases hp : crate.parse value with
    | error => simp [hp]
    | ok url =>
      by_cases hs : url.scheme = "https"
      · cases hh : url.host with
        | none => simp [hp, hs, hh]
        | some host => by_cases hpr : isPrivateHost (crate.hostText host) = true <;>
            simp [hp, hs, hh, hpr]
      · simp [hp, hs]

/-- If the host of the parsed URL is an IP literal, it is the literal of a public address. -/
def PublicLiteral (crate : UrlCrate) (value : String) : Prop :=
  ∀ url host addr, crate.parse value = .ok url → url.host = some host → host.ip = some addr →
    isPrivateIp addr = false

/-- An `https` URL with the literal of a private IPv6 address. -/
def PrivateIpv6Url (crate : UrlCrate) (value : String) : Prop :=
  ∃ url v6, crate.parse value = .ok url ∧ url.scheme = "https" ∧ url.host = some (.ipv6 v6) ∧
    isPrivateIp (.v6 v6) = true

variable {crate : UrlCrate} {value : String}

theorem PrivateIpv6Url.passesUrlChecks (h : PrivateIpv6Url crate value) :
    PassesUrlChecks crate value := by
  obtain ⟨url, v6, hp, hs, hh, -⟩ := h
  exact ⟨url, .ipv6 v6, hp, hs, hh, isPrivateHost_ipv6 crate v6⟩

/-- The literal of a URL that passes the checks is public unless it is an IPv6 literal. -/
theorem PassesUrlChecks.publicLiteral_iff (h : PassesUrlChecks crate value) :
    PublicLiteral crate value ↔ ¬PrivateIpv6Url crate value := by
  obtain ⟨url, host, hpa, hs, hh, hpu⟩ := h
  constructor
  · rintro hl ⟨url', v6, hpa', -, hh', hp⟩
    rw [hl url' (.ipv6 v6) (.v6 v6) hpa' hh' rfl] at hp
    exact absurd hp (by decide)
  · intro hn url' host' addr hpa' hh' ha
    obtain rfl : url = url' := by
      rw [hpa] at hpa'
      exact Except.ok.inj hpa'
    obtain rfl : host = host' := by
      rw [hh] at hh'
      exact Option.some.inj hh'
    cases host with
    | domain => exact absurd ha (by simp [Host.ip])
    | ipv4 v4 =>
      obtain rfl : .v4 v4 = addr := Option.some.inj ha
      rw [← Bool.not_eq_true]
      intro hp
      rw [isPrivateHost_ipv4 crate hp] at hpu
      exact absurd hpu (by decide)
    | ipv6 v6 =>
      obtain rfl : .v6 v6 = addr := Option.some.inj ha
      rw [← Bool.not_eq_true]
      intro hp
      exact hn ⟨url, v6, hpa, hs, hh, hp⟩

/-- An accepted base URL has no private literal as its host, for either validation, exactly when
it is not an `https` URL with a private IPv6 literal; the Forgejo configuration may also be
rejected for another field. -/
theorem acceptedUrl_publicLiteral_iff (crate : UrlCrate) (regexError : String → Option String)
    (value : String) (config : ForgejoConfig) :
    ((validateProviderApiBaseUrl crate value = .ok () → PublicLiteral crate value) ↔
        ¬PrivateIpv6Url crate value) ∧
      ((config.validateInner crate regexError = .ok () →
          ∀ value, config.apiBaseUrl = some value → PublicLiteral crate value) ↔
        (∀ value, config.apiBaseUrl = some value → ¬PrivateIpv6Url crate value) ∨
          config.validateRest regexError ≠ .ok ()) := by
  constructor
  · rw [validateProviderApiBaseUrl_ok_iff]
    constructor
    · intro h hp
      exact (hp.passesUrlChecks.publicLiteral_iff.mp (h hp.passesUrlChecks)) hp
    · intro hn hpa
      exact hpa.publicLiteral_iff.mpr hn
  · rw [config.validateInner_ok_iff]
    constructor
    · intro h
      by_cases hr : config.validateRest regexError = .ok ()
      · refine .inl fun value hv hp => ?_
        have hpa := hp.passesUrlChecks
        exact hpa.publicLiteral_iff.mp (h ⟨⟨value, hv, hpa⟩, hr⟩ value hv) hp
      · exact .inr hr
    · rintro (hn | hr) ⟨⟨value, hv, hpa⟩, hok⟩ value' hv'
      · obtain rfl : value = value' := Option.some.inj (hv ▸ hv')
        exact hpa.publicLiteral_iff.mpr (hn value hv)
      · exact absurd hok hr

def loopbackUrls : UrlCrate where
  parse value :=
    if value = "https://[::1]/" then .ok ⟨"https", some (.ipv6 .localhost), "https://[::1]/"⟩
    else .error "relative URL without a base"
  ipv6Text _ := "::1"

/-- `https://[::1]/` is accepted by both validations, and its host is the loopback address. -/
theorem loopbackUrl_accepted :
    validateProviderApiBaseUrl loopbackUrls "https://[::1]/" = .ok () ∧
      ForgejoConfig.validateInner ⟨some "https://[::1]/", none, []⟩ loopbackUrls (fun _ => none) =
        .ok () ∧
      loopbackUrls.parse "https://[::1]/" =
        .ok ⟨"https", some (.ipv6 .localhost), "https://[::1]/"⟩ ∧
      Host.ip (.ipv6 .localhost) = some (.v6 .localhost) ∧
      isPrivateIp (.v6 .localhost) = true := by
  have hp : PassesUrlChecks loopbackUrls "https://[::1]/" :=
    ⟨_, _, rfl, rfl, rfl, isPrivateHost_ipv6 loopbackUrls .localhost⟩
  refine ⟨(validateProviderApiBaseUrl_ok_iff _ _).mpr hp, ?_, rfl, rfl, by decide⟩
  exact (ForgejoConfig.validateInner_ok_iff _ _ _).mpr ⟨⟨_, rfl, hp⟩, rfl⟩

end Uptrakit.Net
