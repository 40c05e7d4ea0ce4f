import Mathlib.Data.List.AList
import Mathlib.Data.List.Sort
import Uptrakit.Concurrent.Calls
import Uptrakit.Data.Writes
import Uptrakit.Text.Basic

/-!
# Re-encryption of secrets at startup

A starting controller brings encrypted values into the format `ENC:v3:`
(`crates/core/controller-runtime/src/reencrypt.rs`).  It reads a page of OIDC providers and
then writes back, one after the other, the client secrets that are not in the format yet; of
the encrypted settings it reads and writes one at a time.  Meanwhile other controllers are
running, and may write the same secrets.

The update of a row does not test that the row is unchanged.  As long as no secret is written
between its being read and its being written back, every secret keeps the plaintext of the
last write (`secrets_kept`).  A client secret that is changed in between is set back to the
old one (`client_secret_rolled_back`).
-/

namespace Uptrakit.Crypto

open Concurrent Data Text List Function Option

abbrev Uuid := Nat

/-! ## Formats -/

def encV1Prefix : String := "ENC:v1:"

def encV2Prefix : String := "ENC:v2:"

def encV3Prefix : String := "ENC:v3:"

def isEncrypted (s : String) : Bool :=
  startsWith s encV1Prefix || startsWith s encV2Prefix || startsWith s encV3Prefix

/-- The ciphers of the three formats.  Each of them may fail. -/
structure Ciphers where
  decryptV1 : String → Option String
  decryptV2 : (stored aad : String) → Option String
  decryptV3 : (stored aad : String) → Option String
  /-- `encrypt_str`, with the nonce it draws. -/
  encryptStr : (nonce : Nat) → (plaintext aad : String) → Option String
  masterKeyAvailable : Bool

/-- `decrypt_str`: what is not encrypted is taken as it is. -/
def Ciphers.decryptStr (c : Ciphers) (stored aad : String) : Option String :=
  if startsWith stored encV3Prefix then c.decryptV3 stored aad
  else if startsWith stored encV2Prefix then c.decryptV2 stored aad
  else if startsWith stored encV1Prefix then c.decryptV1 stored
  else some stored

/-- Ciphers with the keys of a deployment: what is encrypted can be decrypted. -/
structure Keys extends Ciphers where
  decrypt_encrypt : ∀ {nonce : Nat} {plaintext aad stored : String},
    encryptStr nonce plaintext aad = some stored →
      toCiphers.decryptStr stored aad = some plaintext

structure EncryptedString where
  plaintext : String
  dbValue : String
  deriving DecidableEq

/-- `EncryptedString::decode_db_value`. -/
def Ciphers.decodeDbValue (c : Ciphers) (raw aad : String) : Option EncryptedString :=
  (c.decryptStr raw aad).map fun plaintext => ⟨plaintext, raw⟩

def EncryptedString.needsV3Upgrade (s : EncryptedString) : Bool :=
  !startsWith s.dbValue encV3Prefix

/-! ## Secrets -/

def aadOidcClientSecret : String := "uptrakit:oidc_providers:client_secret"

/-- The settings that `reencrypt_to_v3` upgrades. -/
inductive EncryptedSetting
  | jwtSigningKey | natsUrl | smtpPassword | githubAuthToken | enrollmentToken
  deriving DecidableEq

namespace EncryptedSetting

def key : EncryptedSetting → String
  | jwtSigningKey => "auth.jwt_signing_key"
  | natsUrl => "nats.url"
  | smtpPassword => "smtp.password"
  | githubAuthToken => "global_provider_github.auth_token"
  | enrollmentToken => "system_services.enrollment_token"

def aad : EncryptedSetting → String
  | jwtSigningKey => "uptrakit:settings:jwt_signing_key"
  | natsUrl => "uptrakit:settings:nats_url"
  | smtpPassword => "uptrakit:settings:smtp_password"
  | githubAuthToken => "uptrakit:settings:global_provider_github_auth_token"
  | enrollmentToken => "uptrakit:settings:system_services_enrollment_token"

/-- In the order of `reencrypt_to_v3`. -/
def all : List EncryptedSetting :=
  [jwtSigningKey, natsUrl, smtpPassword, githubAuthToken, enrollmentToken]

end EncryptedSetting

inductive SettingValue
  | text (s : String)
  | other

/-- The column `client_secret` of `oidc_providers`. -/
abbrev Providers := AList fun _ : Uuid => String

def upgradeChunkSize : Nat := 100

namespace Providers

variable (p : Providers)

def page (lastId : Option Uuid) : List (Uuid × String) :=
  (((p.keys.filter fun id => lastId.all (· < id)).insertionSort (· ≤ ·)).take
    upgradeChunkSize).filterMap fun id => (p.lookup id).map (id, ·)

def set (id : Uuid) : Option String → Providers
  | some raw => p.insert id raw
  | none => p.erase id

theorem lookup_set (id raw id') : (p.set id raw).lookup id' = update p.lookup id raw id' := by
  by_cases h : id' = id
  · subst h
    rw [update_self]
    cases raw with
    | none => exact AList.lookup_erase id' p
    | some => exact AList.lookup_insert p
  · rw [update_of_ne h]
    cases raw with
    | none => exact AList.lookup_erase_ne h
    | some => exact AList.lookup_insert_ne h

theorem of_mem_page {p : Providers} {lastId row} (h : row ∈ p.page lastId) :
    p.lookup row.1 = some row.2 := by
  obtain ⟨_, -, hro⟩ := mem_filterMap.1 h
  obtain ⟨raw, hr, rfl⟩ := map_eq_some_iff.1 hro
  exact hr

end Providers

structure Database where
  providers : Providers
  globalSettings : EncryptedSetting → Option SettingValue

inductive Slot
  | clientSecret (id : Uuid)
  | setting (key : EncryptedSetting)
  deriving DecidableEq

def Slot.aad : Slot → String
  | clientSecret _ => aadOidcClientSecret
  | setting key => key.aad

namespace Database

variable (db : Database)

def stored : Slot → Option String
  | .clientSecret id => db.providers.lookup id
  | .setting key =>
    match db.globalSettings key with
    | some (.text s) => some s
    | _ => none

def plaintext (c : Ciphers) (slot : Slot) : Option String :=
  (db.stored slot).bind fun raw => c.decryptStr raw slot.aad

def set (slot : Slot) (raw : Option String) : Database :=
  match slot with
  | .clientSecret id => { db with providers := db.providers.set id raw }
  | .setting key =>
    { db with globalSettings := Function.update db.globalSettings key (raw.map .text) }

def rowExists : Slot → Bool
  | .clientSecret id => (db.providers.lookup id).isSome
  | .setting key => (db.globalSettings key).isSome

/-- `UPDATE` by the primary key: nothing happens if there is no row. -/
def update (slot : Slot) (raw : String) : Database :=
  if db.rowExists slot then db.set slot (some raw) else db

theorem stored_set (slot raw) : (db.set slot raw).stored = Function.update db.stored slot raw := by
  funext slot'
  cases slot with
  | clientSecret id =>
    cases slot' with
    | clientSecret id' =>
      refine (db.providers.lookup_set id raw id').trans ?_
      by_cases h : id' = id
      · subst h
        rw [update_self, update_self]
      · rw [update_of_ne h, update_of_ne (by simpa using h)]
        rfl
    | setting => rfl
  | setting key =>
    cases slot' with
    | clientSecret => rfl
    | setting key' =>
      by_cases h : key' = key
      · subst h
        cases raw <;> simp [set, stored]
      · rw [update_of_ne (by simpa using h)]
        simp [set, stored, update_of_ne h]

/-- The plaintexts after a write: that of the slot is what the stored text decrypts to. -/
theorem plaintext_set (c slot raw) : (db.set slot raw).plaintext c =
      Function.update (db.plaintext c) slot (raw.bind fun raw => c.decryptStr raw slot.aad) := by
  funext slot'
  by_cases h : slot' = slot
  · subst h
    simp [plaintext, stored_set]
  · simp [plaintext, stored_set, h]

end Database

/-! ## Calls -/

inductive Operation
  /-- `reencrypt_to_v3` on a starting controller. -/
  | reencryptToV3
  /-- A running controller writes a secret, or deletes it. -/
  | write (slot : Slot) (secret : Option String)

inductive Frame
  | oidcPage (lastId : Option Uuid)
  | oidcRows (rows : List (Uuid × EncryptedString)) (lastId : Uuid) (pageLen : Nat)
  | settingRead (keys : List EncryptedSetting)
  | settingWrite (key : EncryptedSetting) (plaintext : String) (keys : List EncryptedSetting)
  | write (slot : Slot) (secret : Option String)
  | finished
  deriving DecidableEq

structure Choice where
  fails : Bool := false
  nonce : Nat := 0

structure Shared where
  db : Database
  log : List (Slot × Option String) := []

section Steps

variable (c : Ciphers)

def Operation.enter : Operation → Frame
  | reencryptToV3 => if c.masterKeyAvailable then .oidcPage none else .finished
  | write slot secret => .write slot secret

/-- The rows of a page; a row that cannot be decrypted makes the query fail. -/
def decodePage (rows : List (Uuid × String)) : Option (List (Uuid × EncryptedString)) :=
  rows.mapM fun row => (c.decodeDbValue row.2 aadOidcClientSecret).map (row.1, ·)

/-- The query for a page in `upgrade_oidc_client_secrets`. -/
def oidcPage (ω : Choice) (db : Database) (lastId : Option Uuid) : Frame :=
  if ω.fails then .settingRead EncryptedSetting.all
  else
    match decodePage c (db.providers.page lastId) with
    | none => .settingRead EncryptedSetting.all
    | some rows =>
      match rows.getLast? with
      | none => .settingRead EncryptedSetting.all
      | some last => .oidcRows rows last.1 rows.length

/-- Re-encrypt a secret and update its row, unless the encryption or the update fails. -/
def upgrade (ω : Choice) (db : Database) (slot : Slot) (plaintext : String) : Database :=
  match c.encryptStr ω.nonce plaintext slot.aad with
  | none => db
  | some raw => if ω.fails then db else db.update slot raw

/-- `upgrade_setting` up to its update: the plaintext to encrypt, if there is something to do. -/
def readSetting (db : Database) (key : EncryptedSetting) : Option String :=
  match db.globalSettings key with
  | some (.text stored) =>
    if !isEncrypted stored && stored == "" then none
    else if startsWith stored encV3Prefix then none
    else c.decryptStr stored key.aad
  | _ => none

/-- A write by a running controller, unless the encryption or the statement fails. -/
def writeSecret (ω : Choice) (s : Shared) (slot : Slot) (secret : Option String) : Shared :=
  match secret with
  | none => if ω.fails then s else ⟨s.db.set slot none, s.log ++ [(slot, none)]⟩
  | some plaintext =>
    match c.encryptStr ω.nonce plaintext slot.aad with
    | none => s
    | some raw =>
      if ω.fails then s
      else ⟨s.db.set slot (some raw), s.log ++ [(slot, some plaintext)]⟩

def step (ω : Choice) (s : Shared) : Frame → Shared × Frame
  | .oidcPage lastId => (s, oidcPage c ω s.db lastId)
  | .oidcRows [] lastId pageLen =>
    (s, if pageLen < upgradeChunkSize then .settingRead EncryptedSetting.all
      else .oidcPage (some lastId))
  | .oidcRows (row :: rows) lastId pageLen =>
    (if row.2.needsV3Upgrade then
        { s with db := upgrade c ω s.db (.clientSecret row.1) row.2.plaintext }
      else s,
      .oidcRows rows lastId pageLen)
  | .settingRead [] => (s, .finished)
  | .settingRead (key :: keys) =>
    (s, match if ω.fails then none else readSetting c s.db key with
      | none => .settingRead keys
      | some plaintext => .settingWrite key plaintext keys)
  | .settingWrite key plaintext keys =>
    ({ s with db := upgrade c ω s.db (.setting key) plaintext }, .settingRead keys)
  | .write slot secret => (writeSecret c ω s slot secret, .finished)
  | .finished => (s, .finished)

def controllers : Calls Operation Choice Shared Frame := ⟨Operation.enter c, step c⟩

end Steps

/-- The secrets that a re-encryption has read and is going to write back. -/
def Frame.pending : Frame → List (Slot × String)
  | .oidcRows rows _ _ =>
    (rows.filter fun row => row.2.needsV3Upgrade).map fun row =>
      (.clientSecret row.1, row.2.plaintext)
  | .settingWrite key plaintext _ => [(.setting key, plaintext)]
  | _ => []

def Frame.writes : Frame → Option Slot
  | .write slot _ => some slot
  | _ => none

/-- A running controller writes a secret only while no re-encryption is going to write it
back. -/
def Undisturbed (s : System Shared Frame) : Move Operation Choice → Prop
  | .start _ => True
  | .run t _ => ∀ f ∈ s.calls[t]?, ∀ slot ∈ f.writes, ∀ g ∈ s.calls, slot ∉ g.pending.map Prod.fst

instance (s : System Shared Frame) : ∀ m, Decidable (Undisturbed s m)
  | .start _ => inferInstanceAs (Decidable True)
  | .run t _ => inferInstanceAs (Decidable (∀ f ∈ s.calls[t]?, ∀ slot ∈ f.writes,
      ∀ g ∈ s.calls, slot ∉ g.pending.map Prod.fst))

/-! ## Steps -/

/-- What is pending is what is stored. -/
def Current (c : Ciphers) (db : Database) (f : Frame) : Prop :=
  ∀ w ∈ f.pending, db.plaintext c w.1 = some w.2

section Lemmas

variable {c : Keys} {ω : Choice}

variable {db : Database} {secret : String} {rows : List (Uuid × EncryptedString)}
  {row : Uuid × EncryptedString}

/-- Writing back a secret under another ciphertext changes no plaintext. -/
theorem plaintext_upgrade {slot} (hs : db.plaintext c.toCiphers slot = some secret) :
    (upgrade c.toCiphers ω db slot secret).plaintext c.toCiphers = db.plaintext c.toCiphers := by
  fun_cases upgrade c.toCiphers ω db slot secret with
  | case1 | case2 => rfl
  | case3 _ hr =>
    unfold Database.update
    split
    · rw [Database.plaintext_set, bind_some, c.decrypt_encrypt hr, ← hs, Function.update_eq_self]
    · rfl

theorem of_mem_decodePage {c page} (hr : decodePage c page = some rows) (hro : row ∈ rows) :
    (row.1, row.2.dbValue) ∈ page ∧
      c.decryptStr row.2.dbValue aadOidcClientSecret = some row.2.plaintext := by
  induction page generalizing rows with
  | nil =>
    cases hr
    cases hro
  | cons entry _ ih =>
    simp only [decodePage, mapM_cons, bind_eq_bind, bind_eq_some_iff] at hr
    obtain ⟨head, hh, tail, ht, heq⟩ := hr
    cases heq
    rcases mem_cons.1 hro with rfl | hro
    · simp only [Ciphers.decodeDbValue, map_eq_some_iff] at hh
      obtain ⟨_, ⟨plaintext, hp, rfl⟩, rfl⟩ := hh
      exact ⟨mem_cons_self, hp⟩
    · obtain ⟨hm, hp⟩ := ih ht hro
      exact ⟨mem_cons_of_mem entry hm, hp⟩

theorem current_of_pending_eq_nil {c} {f : Frame} (h : f.pending = []) : Current c db f := by
  intro w hw
  rw [h] at hw
  cases hw

theorem current_oidcPage (c db lastId) : Current c db (oidcPage c ω db lastId) := by
  fun_cases oidcPage c ω db lastId with
  | case4 _ rows hr =>
    intro w hw
    obtain ⟨row, hro, rfl⟩ := mem_map.1 hw
    obtain ⟨hpa, hp⟩ := of_mem_decodePage hr (mem_of_mem_filter hro)
    have hs : db.stored (.clientSecret row.1) = some row.2.dbValue :=
      Providers.of_mem_page hpa
    rw [Database.plaintext, hs]
    exact hp
  | _ => exact current_of_pending_eq_nil rfl

theorem plaintext_of_readSetting {c key} (h : readSetting c db key = some secret) :
    db.plaintext c (.setting key) = some secret := by
  revert h
  fun_cases readSetting c db key with
  | case3 _ hs =>
    intro h
    rw [Database.plaintext, Database.stored, hs]
    exact h
  | _ => exact nofun

/-- What a step does: a running controller writes a secret, or all plaintexts stay as they are
and what is then pending is what is stored. -/
inductive Effect (c : Ciphers) (s : Shared) (f : Frame) (s' : Shared) (f' : Frame) : Prop
  | written (slot secret) (writes : f.writes = some slot) (log : s'.log = s.log ++ [(slot, secret)])
      (plaintext : s'.db.plaintext c = Function.update (s.db.plaintext c) slot secret)
      (pending : f'.pending = [])
  | kept (log : s'.log = s.log) (plaintext : s'.db.plaintext c = s.db.plaintext c)
      (current : Current c s.db f')

theorem effect_step (ω) {s : Shared} {f} (hf : Current c.toCiphers s.db f) :
    Effect c.toCiphers s f (step c.toCiphers ω s f).1 (step c.toCiphers ω s f).2 := by
  fun_cases step c.toCiphers ω s f with
  | case1 => exact .kept rfl rfl (current_oidcPage _ _ _)
  | case2 =>
    refine .kept rfl rfl (current_of_pending_eq_nil ?_)
    split <;> rfl
  | case3 row rows lastId pageLen =>
    have hp : ∀ row' ∈ row :: rows, row'.2.needsV3Upgrade = true →
        s.db.plaintext c.toCiphers (.clientSecret row'.1) = some row'.2.plaintext := by
      intro row' hm hn
      exact hf _ (mem_map.2 ⟨row', mem_filter.2 ⟨hm, hn⟩, rfl⟩)
    have hr : Current c.toCiphers s.db (.oidcRows rows lastId pageLen) := by
      intro w hw
      obtain ⟨row', hro', rfl⟩ := mem_map.1 hw
      obtain ⟨hm, hn⟩ := mem_filter.1 hro'
      exact hp row' (mem_cons_of_mem row hm) hn
    split
    · rename_i hn
      exact .kept rfl (plaintext_upgrade (hp row mem_cons_self hn)) hr
    · exact .kept rfl rfl hr
  | case5 =>
    refine .kept rfl rfl ?_
    split
    · exact current_of_pending_eq_nil rfl
    · rename_i secret hs
      obtain ⟨-, hs⟩ := ite_none_left_eq_some.1 hs
      intro w hw
      cases mem_singleton.1 hw
      exact plaintext_of_readSetting hs
  | case6 key secret =>
    have hs : s.db.plaintext c.toCiphers (.setting key) = some secret :=
      hf _ mem_cons_self
    exact .kept rfl (plaintext_upgrade hs) (current_of_pending_eq_nil rfl)
  | case7 slot secret =>
    fun_cases writeSecret c.toCiphers ω s slot secret with
    | case1 | case3 | case4 => exact .kept rfl rfl (current_of_pending_eq_nil rfl)
    | case2 => exact .written slot none rfl rfl (Database.plaintext_set _ _ _ _) rfl
    | case5 raw _ hra =>
      refine .written slot raw rfl rfl ?_ rfl
      rw [Database.plaintext_set, bind_some, c.decrypt_encrypt hra]
  | case4 | case8 => exact .kept rfl rfl (current_of_pending_eq_nil rfl)

end Lemmas

/-! ## Runs -/

/-- The plaintexts after the writes of running controllers, one after the other. -/
def lastWritten (c : Ciphers) (db : Database) (log : List (Slot × Option String)) :
    Slot → Option String :=
  writeAll (db.plaintext c) log

/-- Every secret is the one last written, and so is what is pending. -/
structure Kept (c : Ciphers) (db : Database) (s : System Shared Frame) : Prop where
  plaintext : s.shared.db.plaintext c = lastWritten c db s.shared.log
  current : ∀ f ∈ s.calls, Current c s.shared.db f

namespace Kept

variable {c : Keys} {db : Database} {s : System Shared Frame}

theorem start (h : Kept c.toCiphers db s) (operation) :
    Kept c.toCiphers db ((controllers c.toCiphers).move s (.start operation)) := by
  refine ⟨h.plaintext, Calls.forall_calls_start h.current ?_⟩
  apply current_of_pending_eq_nil
  cases operation with
  | reencryptToV3 =>
    show Frame.pending (if c.masterKeyAvailable then _ else _) = []
    split <;> rfl
  | write => rfl

theorem step {t ω f f' s'} (h : Kept c.toCiphers db s) (hc : s.calls[t]? = some f)
    (hok : Undisturbed s (.run t ω)) (he : Effect c.toCiphers s.shared f s' f') :
    Kept c.toCiphers db ⟨s', s.calls.set t f'⟩ := by
  cases he with
  | written slot _ writes log plaintext pending =>
    constructor
    · rw [plaintext, log, h.plaintext, lastWritten, lastWritten, writeAll_append]
      rfl
    · -- No call has the slot pending, so what is pending stays current.
      intro g hg w hw
      rcases mem_or_eq_of_mem_set hg with hg | rfl
      · have hne : w.1 ≠ slot := by
          rintro rfl
          exact hok f hc w.1 writes g hg (mem_map_of_mem hw)
        rw [plaintext, update_of_ne hne]
        exact h.current g hg w hw
      · rw [pending] at hw
        cases hw
  | kept log plaintext current =>
    constructor
    · rw [plaintext, log]
      exact h.plaintext
    · intro g hg w hw
      rw [plaintext]
      rcases mem_or_eq_of_mem_set hg with hg | rfl
      · exact h.current g hg w hw
      · exact current w hw

end Kept

/-- In every run in which a secret is written only while no re-encryption is going to write it
back, the plaintext of every secret is that of the last write by a running controller. -/
theorem secrets_kept (c : Keys) (db : Database) (moves : List (Move Operation Choice))
    (hm : Meets (controllers c.toCiphers).move Undisturbed ⟨⟨db, []⟩, []⟩ moves)
    (slot : Slot) :
    ((controllers c.toCiphers).run ⟨⟨db, []⟩, []⟩ moves).shared.db.plaintext c.toCiphers slot =
      lastWritten c.toCiphers db
        ((controllers c.toCiphers).run ⟨⟨db, []⟩, []⟩ moves).shared.log slot := by
  have hk : Kept c.toCiphers db ((controllers c.toCiphers).run ⟨⟨db, []⟩, []⟩ moves) := by
    refine Calls.run_invariant_of_meets ?_ ?_ ?_ hm
    · intro s operation hs _
      exact hs.start operation
    · intro s t ω f hs hok hc
      exact hs.step hc hok (effect_step ω (hs.current f (mem_of_getElem? hc)))
    · refine ⟨rfl, ?_⟩
      intro f hf
      cases hf
  rw [hk.plaintext]

/-! ## A secret that is set back -/

section Example

def markers : Keys where
  decryptV1 stored := stripPrefix stored encV1Prefix
  decryptV2 stored _ := stripPrefix stored encV2Prefix
  decryptV3 stored _ := stripPrefix stored encV3Prefix
  encryptStr _ plaintext _ := some (encV3Prefix ++ plaintext)
  masterKeyAvailable := true
  decrypt_encrypt := by
    rintro nonce plaintext aad stored ⟨⟩
    have hs : startsWith (encV3Prefix ++ plaintext) encV3Prefix = true := by
      simp [startsWith]
    simp [Ciphers.decryptStr, stripPrefix, hs]

/-- A provider whose secret has not been encrypted yet, and an old password of the mail
server. -/
def database : Database where
  providers := AList.singleton 1 "old"
  globalSettings key := if key = .smtpPassword then some (.text "ENC:v1:old") else none

def steps (t n : Nat) : List (Move Operation Choice) := List.replicate n (.run t {})

/-- The secret of the provider is changed before the controller starts, and the password
while it has not been read. -/
def inTurn : List (Move Operation Choice) :=
  [.start (.write (.clientSecret 1) (some "new")), .run 0 {}, .start .reencryptToV3] ++
    steps 1 3 ++ [.start (.write (.setting .smtpPassword) (some "new")), .run 2 {}] ++ steps 1 7

/-- The secrets are changed after the controller has read them. -/
def overtaken : List (Move Operation Choice) :=
  [.start .reencryptToV3, .run 0 {}, .start (.write (.clientSecret 1) (some "new")), .run 1 {}] ++
    steps 0 5 ++ [.start (.write (.setting .smtpPassword) (some "new")), .run 2 {}] ++ steps 0 4

theorem secrets_kept_inTurn :
    Meets (controllers markers.toCiphers).move Undisturbed ⟨⟨database, []⟩, []⟩ inTurn ∧
      lastWritten markers.toCiphers database
        ((controllers markers.toCiphers).run ⟨⟨database, []⟩, []⟩ inTurn).shared.log
          (.clientSecret 1) = some "new" ∧
      ((controllers markers.toCiphers).run ⟨⟨database, []⟩, []⟩ inTurn).shared.db.plaintext
        markers.toCiphers (.clientSecret 1) = some "new" := by
  have hm : Meets (controllers markers.toCiphers).move Undisturbed ⟨⟨database, []⟩, []⟩
      inTurn := by
    decide +kernel
  have hl : lastWritten markers.toCiphers database
      ((controllers markers.toCiphers).run ⟨⟨database, []⟩, []⟩ inTurn).shared.log
        (.clientSecret 1) = some "new" := by
    decide +kernel
  refine ⟨hm, hl, ?_⟩
  rw [secrets_kept markers database inTurn hm, hl]

/-- The re-encryption sets a client secret and a setting back to what it has read. -/
theorem client_secret_rolled_back :
    let s := (controllers markers.toCiphers).run ⟨⟨database, []⟩, []⟩ overtaken
    s.calls = [.finished, .finished, .finished] ∧
      s.shared.log = [(.clientSecret 1, some "new"), (.setting .smtpPassword, some "new")] ∧
      s.shared.db.plaintext markers.toCiphers (.clientSecret 1) = some "old" ∧
      s.shared.db.plaintext markers.toCiphers (.setting .smtpPassword) = some "old" := by
  decide +kernel

end Example

end Uptrakit.Crypto
