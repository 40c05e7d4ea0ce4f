import Mathlib.Logic.Function.Basic

/-!
# Tenant settings

The tables `settings` and `settings_version` of a tenant, the statements that write them
(`crates/ui/web-api-auth/src/settings_store.rs`), and the two groups of settings that the
access settings consist of (`auth/registration.rs` and `auth/authentication.rs`).  Every
write of a setting counts up the version of the tenant's settings.
-/

namespace Uptrakit.Settings

open List

/-! ## Tables -/

inductive SettingKey
  | registrationMode | registrationTokenHash | registrationRequireTokenForOidc
  | passwordAuthEnabled | twoFactorRequired
  deriving DecidableEq

inductive SettingValue
  | text (s : String)
  | bool (b : Bool)
  deriving DecidableEq

structure Tables where
  settings : SettingKey → Option SettingValue
  /-- The column `version` of the tenant's row of `settings_version`, if there is a row. -/
  version : Option Int

inductive Statement
  | upsert (key : SettingKey) (value : SettingValue)
  | delete (key : SettingKey)
  /-- `bump_settings_version`, which inserts the row if there is none. -/
  | bumpSettingsVersion
  deriving DecidableEq

namespace Tables

def execute (t : Tables) : Statement → Tables
  | .upsert key value => { t with settings := Function.update t.settings key (some value) }
  | .delete key => { t with settings := Function.update t.settings key none }
  | .bumpSettingsVersion => { t with version := some (t.version.elim 1 (· + 1)) }

/-- `get_settings_versions`: without a row the version is 0. -/
def currentVersion (t : Tables) : Int := t.version.getD 0

variable (t : Tables)

@[simp] theorem currentVersion_execute_upsert (key value) :
    (t.execute (.upsert key value)).currentVersion = t.currentVersion :=
  rfl

@[simp] theorem currentVersion_execute_delete (key) :
    (t.execute (.delete key)).currentVersion = t.currentVersion := rfl

@[simp] theorem currentVersion_execute_bumpSettingsVersion :
    (t.execute .bumpSettingsVersion).currentVersion = t.currentVersion + 1 := by
  obtain ⟨_, version⟩ := t
  cases version <;> simp [execute, currentVersion]

/-- A statement counts the version up if it is a bump, and keeps it otherwise. -/
theorem currentVersion_execute (statement) : (t.execute statement).currentVersion =
      t.currentVersion + [statement].count .bumpSettingsVersion := by
  cases statement <;> simp

end Tables

def upsertSetting (key : SettingKey) (value : SettingValue) : List Statement :=
  [.upsert key value, .bumpSettingsVersion]

def deleteSetting (key : SettingKey) : List Statement := [.delete key, .bumpSettingsVersion]

/-! ## Registration -/

inductive RegistrationMode
  | opened | invite | closed
  deriving DecidableEq

def RegistrationMode.asStr : RegistrationMode → String
  | opened => "open"
  | invite => "invite"
  | closed => "closed"

structure RegistrationSettings where
  mode : RegistrationMode
  tokenHash : Option String
  requireTokenForOidc : Bool

namespace RegistrationSettings

/-- The part of `update` for the token: `hashed` is the hash of a new token, if it can be hashed,
and `stored` the hash that is stored. -/
def updateToken (mode : RegistrationMode) (token hashed stored : Option String) :
    Option (List Statement × Option String) :=
  if mode = .invite then
    if token.isSome then
      hashed.map fun hash => (upsertSetting .registrationTokenHash (.text hash), some hash)
    else some ([], stored)
  else some (deleteSetting .registrationTokenHash, none)

/-- The part of `update` for OIDC. -/
def updateRequireTokenForOidc (reg : RegistrationSettings) (mode : RegistrationMode)
    (requireTokenForOidc : Option Bool) : List Statement × Bool :=
  if mode = .invite then
    match requireTokenForOidc with
    | some value => (upsertSetting .registrationRequireTokenForOidc (.bool value), value)
    | none => ([], reg.requireTokenForOidc)
  else (deleteSetting .registrationRequireTokenForOidc, false)

/-- `RegistrationSettings::update`: the statements, and the settings to keep in memory; `none` if
the token cannot be hashed. -/
def update (reg : RegistrationSettings) (mode : RegistrationMode) (token : Option String)
    (requireTokenForOidc : Option Bool) (hashed stored : Option String) :
    Option (List Statement × RegistrationSettings) :=
  (updateToken mode token hashed stored).map fun tokenPart =>
    let oidcPart := reg.updateRequireTokenForOidc mode requireTokenForOidc
    (upsertSetting .registrationMode (.text mode.asStr) ++ tokenPart.1 ++ oidcPart.1,
      ⟨mode, tokenPart.2, oidcPart.2⟩)

end RegistrationSettings

/-! ## Authentication -/

structure AuthenticationSettings where
  passwordAuthEnabled : Bool
  twoFactorRequired : Bool

def AuthenticationSettings.save (auth : AuthenticationSettings) : List Statement :=
  upsertSetting .passwordAuthEnabled (.bool auth.passwordAuthEnabled) ++
    upsertSetting .twoFactorRequired (.bool auth.twoFactorRequired)

/-! ## The request -/

structure UpdateAccessSettingsRequest where
  mode : RegistrationMode
  token : Option String
  requireTokenForOidc : Option Bool
  passwordAuthEnabled : Option Bool
  twoFactorRequired : Option Bool

structure ValidationError where
  field : String
  message : String

def UpdateAccessSettingsRequest.validate (req : UpdateAccessSettingsRequest) :
    Except ValidationError Unit :=
  match req.mode with
  | .invite =>
    if req.token.isNone then throw ⟨"token", "required when mode is invite"⟩ else pure ()
  | .opened | .closed =>
    if req.token.isSome then throw ⟨"token", "only valid when mode is invite"⟩
    else if req.requireTokenForOidc.isSome then
      throw ⟨"require_token_for_oidc", "only valid when mode is invite"⟩
    else pure ()

/-- The authentication settings of the request, over those in memory. -/
def UpdateAccessSettingsRequest.authentication (req : UpdateAccessSettingsRequest)
    (auth : AuthenticationSettings) : AuthenticationSettings where
  passwordAuthEnabled := req.passwordAuthEnabled.getD auth.passwordAuthEnabled
  twoFactorRequired := req.twoFactorRequired.getD auth.twoFactorRequired

end Uptrakit.Settings
