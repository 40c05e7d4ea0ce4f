import Mathlib.Data.List.Sort
import Uptrakit.Concurrent.Keys

/-!
# Rotation of the managed CA

The internal CA is a row of `ca_certificates`; the setting
`pki.active_ca_fingerprint` names the active one, and `pki.ca_version` counts the
rotations, so that other controllers notice them.  `rotate_managed_ca` replaces the
active CA in one transaction, provided that it is still the one the caller expects,
and then loads the state of the CA again.

The model has one step for each SQL statement.  A statement may fail, which ends
the call and rolls its transaction back.
-/

namespace Uptrakit.Pki

open Concurrent

/-- A row of `ca_certificates`, with the fingerprint as its key. -/
structure CaCertificate where
  fingerprint : String
  certPem : String
  keyPem : String
  notBefore : Int
  notAfter : Int
  activatedAt : Int
  deactivatedAt : Option Int
  deriving DecidableEq

inductive SettingKey
  | pkiActiveCaFingerprint
  | pkiCaVersion
  | other (name : String)
  deriving DecidableEq

inductive SettingValue
  | string (value : String)
  | number (value : Int)
  | other (json : String)
  deriving DecidableEq

/-- A row of `global_settings`. -/
structure GlobalSetting where
  key : SettingKey
  value : SettingValue
  deriving DecidableEq

inductive Row
  | ca (ca : CaCertificate)
  | setting (setting : GlobalSetting)

def Row.clash : Row → Row → Bool
  | .ca a, .ca b => a.fingerprint == b.fingerprint
  | .setting a, .setting b => a.key == b.key
  | _, _ => false

/-- `SELECT … FROM ca_certificates WHERE p`. -/
def Row.caWhere (p : CaCertificate → Bool) : Row → Option CaCertificate
  | .ca row => if p row then some row else none
  | .setting _ => none

/-- `SELECT … FROM global_settings WHERE p`. -/
def Row.settingWhere (p : GlobalSetting → Bool) : Row → Option GlobalSetting
  | .ca _ => none
  | .setting row => if p row then some row else none

/-! ## Settings -/

def i64Max : Int := 9223372036854775807

def SettingValue.asStr : SettingValue → Option String
  | .string value => some value
  | _ => none

/-- `serde_json::Value::as_i64`. -/
def SettingValue.asI64 : SettingValue → Option Int
  | .number value => if -i64Max - 1 ≤ value ∧ value ≤ i64Max then some value else none
  | _ => none

/-- `find_by_id` on `global_settings`. -/
def findSetting (key : SettingKey) (rows : List (Option Row)) : Option (Nat × GlobalSetting) :=
  selectOne (Row.settingWhere (·.key == key)) rows

def loadActiveCaFingerprint (rows : List (Option Row)) : Option String :=
  (findSetting .pkiActiveCaFingerprint rows).bind (·.2.value.asStr)

def loadCaVersion (rows : List (Option Row)) : Int :=
  ((findSetting .pkiCaVersion rows).bind (·.2.value.asI64)).getD 0

/-- `saturating_add` on `i64`, for a positive summand. -/
def saturatingAdd (a b : Int) : Int := min (a + b) i64Max

/-! ## The state of the CA -/

structure CaBundle where
  certPem : String
  keyPem : String
  deriving DecidableEq

structure CaState where
  active : CaBundle
  previous : Option CaBundle
  trusted : List CaBundle
  managed : Bool
  deriving DecidableEq

inductive PkiError
  | caValidation (message : String)
  | generation
  | parse
  | database
  deriving DecidableEq

/-- The order of the trusted CAs: the active one, then the last deactivated. -/
def compareTrusted (activeFp : String) (a b : CaCertificate) : Ordering :=
  if a.fingerprint = activeFp ∧ b.fingerprint ≠ activeFp then .lt
  else if b.fingerprint = activeFp ∧ a.fingerprint ≠ activeFp then .gt
  else
    ((match a.deactivatedAt, b.deactivatedAt with
      | some aTime, some bTime => compare bTime aTime
      | some _, none => .lt
      | none, some _ => .gt
      | none, none => compare b.activatedAt a.activatedAt).then
      (compare b.activatedAt a.activatedAt)).then (compare a.fingerprint b.fingerprint)

def compareDeactivated (a b : CaCertificate) : Ordering :=
  ((match a.deactivatedAt, b.deactivatedAt with
    | some aTime, some bTime => compare bTime aTime
    | some _, none => .lt
    | none, some _ => .gt
    | none, none => .eq).then
    (compare b.activatedAt a.activatedAt)).then (compare a.fingerprint b.fingerprint)

def mostRecentDeactivated (models : List CaCertificate) : Option CaCertificate :=
  ((models.filter (·.deactivatedAt.isSome)).insertionSort
    fun a b => (compareDeactivated a b).isLE).head?

section State

-- Whether the key and the certificate of a row can be parsed.
variable (parses : String → String → Bool)

def bundleFromModel (model : CaCertificate) : Except PkiError CaBundle :=
  if parses model.certPem model.keyPem then .ok ⟨model.certPem, model.keyPem⟩ else .error .parse

/-- `load_managed_ca_state`, from the rows it has loaded. -/
def caStateFromModels (activeFp : String) (activeModel : CaCertificate)
    (trustedModels : List CaCertificate) : Except PkiError CaState :=
  if trustedModels.any (·.fingerprint == activeFp) then do
    let sorted := trustedModels.insertionSort fun a b => (compareTrusted activeFp a b).isLE
    let active ← bundleFromModel parses activeModel
    let previous :=
      (mostRecentDeactivated sorted).bind fun model => (bundleFromModel parses model).toOption
    let trusted ← sorted.mapM (bundleFromModel parses)
    return ⟨active, previous, trusted, true⟩
  else .error (.caValidation "active CA is expired or missing from trusted set")

end State

/-! ## The calls -/

/-- What a call returns.  A failed call says whether its rotation had been committed. -/
inductive Answer
  | outcome (rotated : Bool) (state : CaState)
  | failed (rotated : Bool) (error : PkiError)
  deriving DecidableEq

/-- The points at which a call stands between two statements, with the fingerprint it
expects. -/
inductive Frame
  | loadCurrent (expected : String)
  | insertCa (expected current : String)
  | deactivate (expected current newFp : String) (now : Int)
  | swap (expected current newFp : String)
  | readVersion (expected : String)
  | findVersion (expected : String) (next : Int)
  | updateVersion (expected : String) (next : Int)
  | insertVersion (expected : String) (next : Int)
  | commitRotation (expected : String)
  | abandon (expected : String)
  | dropped (expected : String)
  | loadFingerprint (expected : String) (rotated : Bool)
  | loadActive (expected : String) (rotated : Bool) (activeFp : String)
  | loadTrusted (expected : String) (rotated : Bool) (activeFp : String)
      (activeModel : CaCertificate)
  | returned (expected : String) (answer : Answer)
  deriving DecidableEq

/-- What `generate_ca` returns: the certificate, with its fingerprint and dates. -/
structure Generated where
  fingerprint : String
  certPem : String
  keyPem : String
  notBefore : Int
  notAfter : Int

/-- What a step cannot know: whether its statement fails, the clock, and the new CA. -/
structure Choice where
  fails : Bool := false
  now : Int := 0
  generated : Option Generated := none

def Frame.expected : Frame → String
  | loadCurrent expected | insertCa expected _ | deactivate expected _ _ _ => expected
  | swap expected _ _ | readVersion expected | findVersion expected _ => expected
  | updateVersion expected _ | insertVersion expected _ | commitRotation expected => expected
  | abandon expected | dropped expected | loadFingerprint expected _ => expected
  | loadActive expected _ _ | loadTrusted expected _ _ _ | returned expected _ => expected

def Frame.rotated : Frame → Bool
  | loadFingerprint _ rotated | loadActive _ rotated _ | loadTrusted _ rotated _ _ => rotated
  | returned _ (.outcome rotated _) | returned _ (.failed rotated _) => rotated
  | _ => false

def Generated.model (ca : Generated) (now : Int) : CaCertificate where
  fingerprint := ca.fingerprint
  certPem := ca.certPem
  keyPem := ca.keyPem
  notBefore := ca.notBefore
  notAfter := ca.notAfter
  activatedAt := now
  deactivatedAt := none

def execute (parses : String → String → Bool) (choice : Choice) (rows : List (Option Row)) :
    Frame → Act Row Frame
  | .loadCurrent expected =>
    match loadActiveCaFingerprint rows with
    | none => .next (.abandon expected)
    | some current =>
      if current ≠ expected then .next (.abandon expected)
      else .next (.insertCa expected current)
  | .insertCa expected current =>
    match choice.generated with
    | none => .rollback (.returned expected (.failed false .generation))
    | some ca =>
      .insert (.ca (ca.model choice.now))
        (.deactivate expected current ca.fingerprint choice.now) (.dropped expected)
  | .deactivate expected current newFp now =>
    match selectOne (Row.caWhere (·.fingerprint == current)) rows with
    | none => .next (.abandon expected)
    | some (i, ca) =>
      .write i (some (.ca { ca with deactivatedAt := some now })) (.swap expected current newFp)
  | .swap expected current newFp =>
    -- `update_global_setting_string_cas`
    match selectOne (Row.settingWhere fun setting =>
        setting.key == .pkiActiveCaFingerprint && setting.value == .string current) rows with
    | none => .next (.abandon expected)
    | some (i, setting) =>
      .write i (some (.setting { setting with value := .string newFp }))
        (.readVersion expected)
  | .readVersion expected =>
    -- `bump_global_setting_i64`
    .next (.findVersion expected (saturatingAdd (loadCaVersion rows) 1))
  | .findVersion expected next =>
    -- `set_global_setting_i64`
    match findSetting .pkiCaVersion rows with
    | some _ => .next (.updateVersion expected next)
    | none => .next (.insertVersion expected next)
  | .updateVersion expected next =>
    match findSetting .pkiCaVersion rows with
    | some (i, setting) =>
      .write i (some (.setting { setting with value := .number next }))
        (.commitRotation expected)
    | none => .rollback (.returned expected (.failed false .database))
  | .insertVersion expected next =>
    .insert (.setting ⟨.pkiCaVersion, .number next⟩) (.commitRotation expected)
      (.dropped expected)
  | .commitRotation expected => .commit (.loadFingerprint expected true)
  | .abandon expected => .rollback (.loadFingerprint expected false)
  | .dropped expected => .rollback (.returned expected (.failed false .database))
  | .loadFingerprint expected rotated =>
    match loadActiveCaFingerprint rows with
    | none =>
      .next (.returned expected
        (.failed rotated (.caValidation "missing active CA fingerprint")))
    | some activeFp => .next (.loadActive expected rotated activeFp)
  | .loadActive expected rotated activeFp =>
    match selectOne (Row.caWhere (·.fingerprint == activeFp)) rows with
    | none =>
      .next (.returned expected (.failed rotated (.caValidation "active CA record not found")))
    | some (_, activeModel) => .next (.loadTrusted expected rotated activeFp activeModel)
  | .loadTrusted expected rotated activeFp activeModel =>
    let trustedModels :=
      (select (Row.caWhere fun ca => decide (choice.now ≤ ca.notAfter)) rows).map Prod.snd
    match caStateFromModels parses activeFp activeModel trustedModels with
    | .error error => .next (.returned expected (.failed rotated error))
    | .ok state => .next (.returned expected (.outcome rotated state))
  | .returned expected answer => .next (.returned expected answer)

def step (parses : String → String → Bool) (choice : Choice) (rows : List (Option Row))
    (f : Frame) : Act Row Frame :=
  match f with
  | .returned expected answer => .next (.returned expected answer)
  | f =>
    if choice.fails then .rollback (.returned f.expected (.failed f.rotated .database))
    else execute parses choice rows f

/-- The calls of `rotate_managed_ca`, by any number of controllers; an operation is the
fingerprint that the call expects. -/
def rotations (parses : String → String → Bool) : Transactions String Choice Row Frame where
  enter := Frame.loadCurrent
  step := step parses
  clash := Row.clash

end Uptrakit.Pki
