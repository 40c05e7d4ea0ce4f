import Uptrakit.Concurrent.Calls
import Uptrakit.Settings.Tables
import Uptrakit.Text.Basic

/-!
# Requests behind the ETag layer

`etag_middleware::<SettingsVersion>` (`crates/ui/web-api/src/middleware/etag.rs`) guards the
routes of the tenant's settings: a `PUT` has to send the ETag that it has read in `If-Match`.
The middleware compares it with the version in the cache of the controller before the handler
runs.  After a success it reads the version from the database and stores it in the cache.

Modelled are the `PUT` requests for the access settings (`routes/settings_access.rs`) and for
plugin configs (`routes/plugin_configs/crud.rs`), at every access to the cache, to the settings
in memory and to the database.  The first statement of an update of the access settings locks
the row of the registration mode, so that another such update waits for its commit.
-/

namespace Uptrakit.Settings

open Concurrent Text

abbrev Uuid := Nat

abbrev Time := Int

/-! ## ETags -/

/-- The value of a header, which need not be text. -/
inductive HeaderValue
  | ascii (s : String)
  | nonAscii

/-- Strip `W/` and surrounding quotes. -/
def stripEtag (s : String) : String := trimMatches ((stripPrefix s "W/").getD s) '"'

def settingsEtag (version : Nat) : String := "W/\"settings-v" ++ toString version ++ "\""

theorem quote_notMem_repr (n : Nat) : '"' ∉ (toString n).toList := by
  intro h
  rw [Nat.toString_eq_repr, Nat.toList_repr] at h
  have hdigit := Nat.isDigit_of_mem_toDigits (by decide) (by decide) h
  exact absurd hdigit (by decide)

theorem stripEtag_settingsEtag (version : Nat) :
    stripEtag (settingsEtag version) = "settings-v" ++ toString version := by
  have hrest : stripPrefix (settingsEtag version) "W/" =
      some ("\"settings-v" ++ toString version ++ "\"") := by
    rw [stripPrefix_eq_some]
    show ("W/\"settings-v" ++ toString version ++ "\"").toList = _
    simp only [String.toList_append]
    rfl
  have ht : trimMatches ("\"settings-v" ++ toString version ++ "\"") '"' =
      String.ofList ("settings-v" ++ toString version).toList := by
    apply trimMatches_of_delimited
    · rw [String.toList_append]
      exact List.append_ne_nil_of_left_ne_nil (by decide) _
    · rw [String.toList_append, List.mem_append, not_or]
      exact ⟨by decide, quote_notMem_repr version⟩
    · simp only [String.toList_append]
      rfl
  rw [stripEtag, hrest, Option.getD_some, ht, String.ofList_toList]

/-- Different versions have different ETags. -/
theorem stripEtag_settingsEtag_inj {v w}
    (h : stripEtag (settingsEtag v) = stripEtag (settingsEtag w)) : v = w := by
  rw [stripEtag_settingsEtag, stripEtag_settingsEtag, String.append_right_inj] at h
  have hdigits : Nat.toDigits 10 v = Nat.toDigits 10 w := by
    rw [← Nat.toList_repr, ← Nat.toList_repr]
    exact congrArg String.toList h
  rw [← Nat.ofDigitChars_ten_toDigits (n := v), hdigits, Nat.ofDigitChars_ten_toDigits]

/-! ## Responses -/

structure ErrorResponse where
  error : String
  code : Option String
  deriving DecidableEq

structure AccessSettingsResponse where
  mode : RegistrationMode
  requireTokenForOidc : Bool
  passwordAuthEnabled : Bool
  twoFactorRequired : Bool
  deriving DecidableEq

def currentResponse (reg : RegistrationSettings) (auth : AuthenticationSettings) :
    AccessSettingsResponse where
  mode := reg.mode
  requireTokenForOidc := reg.requireTokenForOidc
  passwordAuthEnabled := auth.passwordAuthEnabled
  twoFactorRequired := auth.twoFactorRequired

structure PluginConfigResponse (κ : Type) where
  id : Uuid
  name : String
  pluginType : String
  config : κ
  enabled : Bool
  capabilities : List String
  createdAt : Time
  updatedAt : Time
  deriving DecidableEq

inductive Body (κ : Type)
  | error (e : ErrorResponse)
  | access (r : AccessSettingsResponse)
  | pluginConfig (r : PluginConfigResponse κ)
  deriving DecidableEq

structure Response (κ : Type) where
  status : Nat
  body : Body κ
  etag : Option String := none

/-- `StatusCode::is_success`. -/
def Response.isSuccess {κ : Type} (r : Response κ) : Bool := 200 ≤ r.status && r.status < 300

def errorResponse {κ : Type} (status : Nat) (message : String) : Response κ :=
  ⟨status, .error ⟨message, none⟩, none⟩

def etagError {κ : Type} (status : Nat) (message code : String) : Response κ :=
  ⟨status, .error ⟨message, some code⟩, none⟩

/-! ## Plugin configs -/

/-- A row of `plugin_config`. -/
structure PluginConfig (κ : Type) where
  id : Uuid
  tenantId : Uuid
  name : String
  pluginType : String
  config : κ
  enabled : Bool
  createdAt : Time
  updatedAt : Time
  deactivatedAt : Option Time
  credentialUpdatedAt : Option Time

structure PluginConfigColumns (κ : Type) where
  name : Option String
  config : Option κ
  enabled : Option Bool
  credentialUpdatedAt : Option Time
  updatedAt : Time

def PluginConfig.set {κ : Type} (m : PluginConfig κ) (columns : PluginConfigColumns κ) :
    PluginConfig κ :=
  { m with
    name := columns.name.getD m.name
    config := columns.config.getD m.config
    enabled := columns.enabled.getD m.enabled
    credentialUpdatedAt := columns.credentialUpdatedAt <|> m.credentialUpdatedAt
    updatedAt := columns.updatedAt }

structure UpdatePluginConfigRequest (κ : Type) where
  name : Option String
  config : Option κ
  enabled : Option Bool

structure PluginConfigOps (κ : Type) where
  /-- `config_model` of the descriptor of a known plugin type is not `None`. -/
  supportsConfigs : String → Option Bool
  /-- Fields with a dangerous command, and what is dangerous about it. -/
  dangerousMatches : κ → List (String × String)
  restoreConfigSecrets : String → κ → κ → κ
  validateConfig : String → κ → Except String Unit
  pruneStaleSensitiveKeys : String → κ → κ
  assertNoSentinel : String → κ → Except String Unit
  sensitiveValueChangedFor : String → κ → κ → Bool
  /-- `EncryptedPluginConfig::from_json`. -/
  encrypt : κ → Except String Unit
  maskConfigSecrets : String → κ → κ
  capabilities : String → List String

inductive PluginConfigError
  | emptyName
  | configValidation (message : String)
  | encryption (message : String)

def PluginConfigError.message : PluginConfigError → String
  | emptyName => "name must not be empty"
  | configValidation message => "config validation error: " ++ message
  | encryption message => "config encryption failed: " ++ message

def PluginConfigError.status : PluginConfigError → Nat
  | emptyName | configValidation _ => 400
  | encryption _ => 500

section PluginConfigs

variable {κ : Type} (ops : PluginConfigOps κ)

/-- The new config of `update_plugin_config_in_tx`, and whether a credential has changed. -/
def updatedConfig (before : PluginConfig κ) (config : κ) : Except PluginConfigError (κ × Bool) := do
  let merged := ops.restoreConfigSecrets before.pluginType config before.config
  (ops.validateConfig before.pluginType merged).mapError .configValidation
  let pruned := ops.pruneStaleSensitiveKeys before.pluginType merged
  (ops.assertNoSentinel before.pluginType pruned).mapError .configValidation
  (ops.encrypt pruned).mapError .encryption
  pure (pruned, ops.sensitiveValueChangedFor before.pluginType pruned before.config)

/-- `update_plugin_config_in_tx`, from the row it has read: the columns it sets. -/
def updatedColumns (before : PluginConfig κ) (req : UpdatePluginConfigRequest κ) (now : Time) :
    Except PluginConfigError (PluginConfigColumns κ) :=
  if req.name = some "" then throw .emptyName
  else
    match req.config with
    | none => pure ⟨req.name, none, req.enabled, none, now⟩
    | some config => do
        let (stored, changed) ← updatedConfig ops before config
        pure ⟨req.name, some stored, req.enabled, if changed then some now else none, now⟩

def pluginConfigToResponse (m : PluginConfig κ) : PluginConfigResponse κ where
  id := m.id
  name := m.name
  pluginType := m.pluginType
  config := ops.maskConfigSecrets m.pluginType m.config
  enabled := m.enabled
  capabilities := ops.capabilities m.pluginType
  createdAt := m.createdAt
  updatedAt := m.updatedAt

def rejectConfigModelNonePluginType (pluginType : String) : Option (Response κ) :=
  match ops.supportsConfigs pluginType with
  | none => some (errorResponse 400 "Unknown plugin type")
  | some false =>
    some (errorResponse 400
      ("Plugin type '" ++ pluginType ++ "' does not support per-instance plugin configs"))
  | some true => none

def formatDangerousPatternRejection (found : List (String × String)) : String :=
  found.foldl (fun msg m => msg ++ "; " ++ m.1 ++ ": " ++ m.2)
    "Plugin config contains dangerous command patterns and was rejected by server policy"

/-- What keeps `update_plugin_config` from opening its transaction, from the row it has read. -/
def rejectPluginConfig (rejectDangerousCommands : Bool) (existing : PluginConfig κ)
    (req : UpdatePluginConfigRequest κ) : Option (Response κ) :=
  match rejectConfigModelNonePluginType ops existing.pluginType with
  | some rejection => some rejection
  | none =>
    let found := (req.config.map ops.dangerousMatches).getD []
    if rejectDangerousCommands ∧ found ≠ [] then
      some (errorResponse 400 (formatDangerousPatternRejection found))
    else none

end PluginConfigs

/-! ## Requests -/

inductive AuthMethod
  | password
  | oidc (providerId : Uuid)
  | apiToken
  deriving DecidableEq

/-- The `PUT` requests of the two routes.  A plugin config request is parsed, and may be invalid. -/
inductive Resource (κ : Type)
  | accessSettings (req : UpdateAccessSettingsRequest) (authMethod : AuthMethod)
  | pluginConfig (id : Uuid) (body : Except String (UpdatePluginConfigRequest κ))

structure Put (κ : Type) where
  ifMatch : Option HeaderValue
  resource : Resource κ

/-- The value that `If-Match` carries. -/
def Put.etagValue {κ : Type} (put : Put κ) : Option String :=
  match put.ifMatch with
  | some (.ascii s) => some (stripEtag s)
  | _ => none

/-- A row of `oidc_provider`. -/
structure OidcProvider where
  isActive : Bool
  deactivatedAt : Option Time

structure Deployment (κ : Type) where
  tenantId : Uuid
  /-- The feature `oidc`. -/
  oidc : Bool
  rejectDangerousCommands : Bool
  ops : PluginConfigOps κ

structure Controller (κ : Type) where
  /-- `settings_version_cache` for the tenant. -/
  cached : Option Nat
  registration : RegistrationSettings
  authentication : AuthenticationSettings
  /-- What is committed. -/
  tables : Tables
  /-- What the update of the access settings that is under way has written. -/
  uncommitted : Option Tables := none
  configs : Uuid → Option (PluginConfig κ)
  oidcProviders : List OidcProvider

namespace Controller

variable {κ : Type} (s : Controller κ)

def currentEtag : String := settingsEtag (s.cached.getD 0)

/-- The version that `refresh_etag` reads. -/
def storedVersion : Nat := s.tables.currentVersion.toNat

def findRawActiveConfig (tenantId id : Uuid) : Option (PluginConfig κ) :=
  (s.configs id).filter fun m => m.tenantId == tenantId && m.deactivatedAt.isNone

end Controller

inductive Frame (κ : Type)
  | compare (put : Put κ)
  | accessValidate (put : Put κ) (req : UpdateAccessSettingsRequest) (authMethod : AuthMethod)
  | accessProviders (put : Put κ) (req : UpdateAccessSettingsRequest)
  | accessRegistration (put : Put κ) (req : UpdateAccessSettingsRequest)
  | accessLock (put : Put κ) (req : UpdateAccessSettingsRequest) (reg : RegistrationSettings)
      (statements : List Statement)
  | accessUpdate (put : Put κ) (req : UpdateAccessSettingsRequest) (reg : RegistrationSettings)
      (statements : List Statement)
  | accessSave (put : Put κ) (reg : RegistrationSettings) (auth : AuthenticationSettings)
      (statements : List Statement)
  | setRegistration (put : Put κ) (reg : RegistrationSettings) (auth : AuthenticationSettings)
  | setAuthentication (put : Put κ) (auth : AuthenticationSettings)
  | accessRespond (put : Put κ)
  | pluginLoad (put : Put κ) (id : Uuid) (body : Except String (UpdatePluginConfigRequest κ))
  | pluginFind (put : Put κ) (id : Uuid) (req : UpdatePluginConfigRequest κ)
  | pluginCommit (put : Put κ) (before : PluginConfig κ) (columns : PluginConfigColumns κ)
  | refreshRead (put : Put κ) (response : Response κ)
  | refreshStore (put : Put κ) (response : Response κ) (version : Nat)
  | answered (put : Put κ) (response : Response κ)

/-- Choices of the environment: the time, and the hash of a new token unless hashing fails. -/
structure Choice where
  now : Time := 0
  hashed : Option String := none

section Steps

variable {κ : Type}

def Put.handler (put : Put κ) : Frame κ :=
  match put.resource with
  | .accessSettings req authMethod => .accessValidate put req authMethod
  | .pluginConfig id body => .pluginLoad put id body

/-- The validation of `If-Match`. -/
def compareEtag (s : Controller κ) (put : Put κ) : Frame κ :=
  match put.ifMatch with
  | none => .answered put (etagError 428 "if-match header is required" "if_match.required")
  | some .nonAscii =>
    .answered put
      (etagError 400 "if-match header contains non-ASCII bytes" "if_match.parse_error")
  | some (.ascii client) =>
    if stripEtag client ≠ stripEtag s.currentEtag then
      .answered put (etagError 409 "etag mismatch (stale version)" "if_match.stale")
    else put.handler

/-- The middleware passes an error on, and refreshes the ETag after a success. -/
def respond (put : Put κ) (response : Response κ) : Frame κ :=
  if response.isSuccess then .refreshRead put response else .answered put response

/-- The checks of `update_access_settings` that need no query. -/
def accessValidate (put : Put κ) (req : UpdateAccessSettingsRequest) (authMethod : AuthMethod) :
    Frame κ :=
  match req.validate with
  | .error e => respond put (errorResponse 422 (e.field ++ ": " ++ e.message))
  | .ok () =>
    if req.passwordAuthEnabled = some false then
      if authMethod = .password then
        respond put (errorResponse 409
          "Cannot disable password authentication while logged in with a password")
      else .accessProviders put req
    else .accessRegistration put req

/-- Password authentication is disabled only if users can sign in by OIDC. -/
def accessProviders (d : Deployment κ) (s : Controller κ) (put : Put κ)
    (req : UpdateAccessSettingsRequest) : Frame κ :=
  if d.oidc = false then
    respond put (errorResponse 409
      "Cannot disable password authentication: OIDC support is not enabled")
  else if s.oidcProviders.all fun p => !(p.isActive && p.deactivatedAt.isNone) then
    respond put (errorResponse 409
      "Cannot disable password authentication with no active OIDC providers")
  else .accessRegistration put req

/-- The statements of `RegistrationSettings::update`. -/
def accessRegistration (ω : Choice) (s : Controller κ) (put : Put κ)
    (req : UpdateAccessSettingsRequest) : Frame κ :=
  let stored := match s.tables.settings .registrationTokenHash with
    | some (.text hash) => some hash
    | _ => none
  match s.registration.update req.mode req.token req.requireTokenForOidc ω.hashed stored with
  | none => respond put (errorResponse 500 "Internal server error")
  | some (statements, reg) => .accessLock put req reg statements

/-- `update_plugin_config` up to its transaction. -/
def pluginLoad (d : Deployment κ) (s : Controller κ) (put : Put κ) (id : Uuid)
    (body : Except String (UpdatePluginConfigRequest κ)) : Frame κ :=
  match body with
  | .error message => respond put (errorResponse 400 message)
  | .ok req =>
    match s.findRawActiveConfig d.tenantId id with
    | none => respond put (errorResponse 404 "Plugin config not found")
    | some existing =>
      match rejectPluginConfig d.ops d.rejectDangerousCommands existing req with
      | some rejection => respond put rejection
      | none => .pluginFind put id req

/-- `update_plugin_config_in_tx`. -/
def pluginFind (d : Deployment κ) (ω : Choice) (s : Controller κ) (put : Put κ) (id : Uuid)
    (req : UpdatePluginConfigRequest κ) : Frame κ :=
  match s.findRawActiveConfig d.tenantId id with
  | none => respond put (errorResponse 404 "Plugin config not found")
  | some before =>
    match updatedColumns d.ops before req ω.now with
    | .error e => respond put (errorResponse e.status e.message)
    | .ok columns => .pluginCommit put before columns

def step (d : Deployment κ) (ω : Choice) (s : Controller κ) : Frame κ → Controller κ × Frame κ
  | .compare put => (s, compareEtag s put)
  | .accessValidate put req authMethod => (s, accessValidate put req authMethod)
  | .accessProviders put req => (s, accessProviders d s put req)
  | .accessRegistration put req => (s, accessRegistration ω s put req)
  | .accessLock put req reg statements =>
    -- the row is locked until the other transaction commits
    if s.uncommitted.isSome then (s, .accessLock put req reg statements)
    else ({ s with uncommitted := some s.tables }, .accessUpdate put req reg statements)
  | .accessUpdate put req reg (statement :: statements) =>
    ({ s with uncommitted := s.uncommitted.map (·.execute statement) },
      .accessUpdate put req reg statements)
  | .accessUpdate put req reg [] =>
    let auth := req.authentication s.authentication
    (s, .accessSave put reg auth auth.save)
  | .accessSave put reg auth (statement :: statements) =>
    ({ s with uncommitted := s.uncommitted.map (·.execute statement) },
      .accessSave put reg auth statements)
  | .accessSave put reg auth [] =>
    -- commit
    ({ s with tables := s.uncommitted.getD s.tables, uncommitted := none },
      .setRegistration put reg auth)
  | .setRegistration put reg auth => ({ s with registration := reg }, .setAuthentication put auth)
  | .setAuthentication put auth => ({ s with authentication := auth }, .accessRespond put)
  | .accessRespond put =>
    (s, respond put ⟨200, .access (currentResponse s.registration s.authentication), none⟩)
  | .pluginLoad put id body => (s, pluginLoad d s put id body)
  | .pluginFind put id req => (s, pluginFind d ω s put id req)
  | .pluginCommit put before columns =>
    ({ s with
        configs := Function.update s.configs before.id
          ((s.configs before.id).map (·.set columns)) },
      respond put
        ⟨200, .pluginConfig (pluginConfigToResponse d.ops (before.set columns)), none⟩)
  | .refreshRead put response => (s, .refreshStore put response s.storedVersion)
  | .refreshStore put response version =>
    ({ s with cached := some version },
      .answered put { response with etag := some (settingsEtag version) })
  | .answered put response => (s, .answered put response)

def puts (d : Deployment κ) : Calls (Put κ) Choice (Controller κ) (Frame κ) := ⟨.compare, step d⟩

end Steps

end Uptrakit.Settings
