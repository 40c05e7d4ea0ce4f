import Uptrakit.Pki.Rotation

/-!
# The active CA

Only the commit of a rotation changes a committed row.  A call that has swapped the
setting holds its row until it ends, so the version it reads is the version it
replaces, and the CA it has deactivated is the one the setting named.  A call that
has only deactivated the CA holds that row, and finds the setting swapped if another
call was faster.
-/

namespace Uptrakit.Pki

open Concurrent List Database Transactions Row Option Task Bool

def CaAt (rows : List (Option Row)) (i : Nat) (ca : CaCertificate) : Prop :=
  rows[i]? = some (some (.ca ca))

def SettingAt (rows : List (Option Row)) (i : Nat) (setting : GlobalSetting) : Prop :=
  rows[i]? = some (some (.setting setting))

/-- There is one active CA, and the setting names it. -/
structure OneActive (rows : List (Option Row)) (i : Nat) (ca : CaCertificate) : Prop where
  row : CaAt rows i ca
  active : ca.deactivatedAt = none
  setting : loadActiveCaFingerprint rows = some ca.fingerprint
  only : ∀ j other, CaAt rows j other → other.deactivatedAt = none → j = i

theorem Row.clash_symm (a b : Row) : a.clash b = b.clash a := by
  cases a <;> cases b <;> simp only [Row.clash, beq_comm]

/-! ## Rows -/

section Rows

variable {rows rows' : List (Option Row)} {i j : Nat}

theorem CaAt.eq {a b} (ha : CaAt rows i a) (hb : CaAt rows i b) : a = b := by
  rw [CaAt, ha] at hb
  simpa using hb

variable {ca : CaCertificate} {setting : GlobalSetting} {key : SettingKey}

theorem CaAt.not_settingAt (hca : CaAt rows i ca) (hs : SettingAt rows i setting) :
    False := by
  rw [CaAt, hs] at hca
  cases hca

theorem SettingAt.eq {a b} (ha : SettingAt rows i a) (hb : SettingAt rows i b) : a = b := by
  rw [SettingAt, ha] at hb
  simpa using hb

theorem caAt_of_selectOne {p : CaCertificate → Bool}
    (h : selectOne (caWhere p) rows = some (i, ca)) : CaAt rows i ca ∧ p ca := by
  obtain ⟨row, hr, hpi⟩ := of_selectOne_eq_some h
  cases row with
  | setting => cases hpi
  | ca =>
    obtain ⟨hp, ⟨⟩⟩ := ite_none_right_eq_some.mp hpi
    exact ⟨hr, hp⟩

theorem settingAt_of_selectOne {p : GlobalSetting → Bool}
    (h : selectOne (settingWhere p) rows = some (i, setting)) :
    SettingAt rows i setting ∧ p setting := by
  obtain ⟨row, hr, hpi⟩ := of_selectOne_eq_some h
  cases row with
  | ca => cases hpi
  | setting =>
    obtain ⟨hp, ⟨⟩⟩ := ite_none_right_eq_some.mp hpi
    exact ⟨hr, hp⟩

theorem settingAt_of_findSetting (h : findSetting key rows = some (i, setting)) :
    SettingAt rows i setting ∧ setting.key = key := by
  obtain ⟨hat, hk⟩ := settingAt_of_selectOne h
  exact ⟨hat, beq_iff_eq.mp hk⟩

theorem ne_key_of_findSetting (h : findSetting key rows = none) (hat : SettingAt rows i setting) :
    setting.key ≠ key := by
  intro hk
  have hn := of_selectOne_eq_none h hat
  simp [settingWhere, hk] at hn

section Keys

variable (hunique : Unique Row.clash rows)

include hunique

theorem caAt_unique {a b} (ha : CaAt rows i a) (hb : CaAt rows j b)
    (hfp : a.fingerprint = b.fingerprint) : i = j :=
  hunique i j _ _ ha hb (beq_iff_eq.mpr hfp)

theorem settingAt_unique {a b} (ha : SettingAt rows i a) (hb : SettingAt rows j b)
    (hk : a.key = b.key) : i = j :=
  hunique i j _ _ ha hb (beq_iff_eq.mpr hk)

theorem findSetting_eq_some (hat : SettingAt rows i setting) :
    findSetting setting.key rows = some (i, setting) := by
  refine selectOne_eq_some hat (by simp [settingWhere]) ?_
  intro j row setting' hr hp
  cases row with
  | ca => cases hp
  | setting =>
    obtain ⟨hk, -⟩ := ite_none_right_eq_some.mp hp
    exact settingAt_unique hunique hr hat (beq_iff_eq.mp hk)

theorem loadActiveCaFingerprint_eq {fingerprint}
    (hat : SettingAt rows i ⟨.pkiActiveCaFingerprint, .string fingerprint⟩) :
    loadActiveCaFingerprint rows = some fingerprint := by
  have hf := findSetting_eq_some hunique hat
  rw [loadActiveCaFingerprint, hf]
  rfl

theorem loadCaVersion_congr (h : ∀ k setting, setting.key = .pkiCaVersion →
      (SettingAt rows' k setting ↔ SettingAt rows k setting)) :
    loadCaVersion rows' = loadCaVersion rows := by
  have hf : findSetting .pkiCaVersion rows' = findSetting .pkiCaVersion rows := by
    cases hf' : findSetting .pkiCaVersion rows' with
    | some =>
      obtain ⟨hat, hk⟩ := settingAt_of_findSetting hf'
      rw [← hk, findSetting_eq_some hunique ((h _ _ hk).mp hat)]
    | none =>
      cases hf : findSetting .pkiCaVersion rows with
      | none => rfl
      | some =>
        obtain ⟨hat, hk⟩ := settingAt_of_findSetting hf
        exact absurd hk (ne_key_of_findSetting hf' ((h _ _ hk).mpr hat))
  rw [loadCaVersion, hf, loadCaVersion]

end Keys

theorem asI64_bounds {value : SettingValue} {n} (h : value.asI64 = some n) :
    -i64Max - 1 ≤ n ∧ n ≤ i64Max := by
  cases value with
  | number =>
    obtain ⟨hb, ⟨⟩⟩ := ite_none_right_eq_some.mp h
    exact hb
  | string | other => cases h

theorem loadCaVersion_bounds (rows) :
    -i64Max - 1 ≤ loadCaVersion rows ∧ loadCaVersion rows ≤ i64Max := by
  unfold loadCaVersion
  cases hv : (findSetting .pkiCaVersion rows).bind (·.2.value.asI64) with
  | none => exact ⟨by decide, by decide⟩
  | some =>
    obtain ⟨_, -, hv⟩ := bind_eq_some_iff.mp hv
    exact asI64_bounds hv

end Rows

/-! ## Rotations -/

/-- The rows after the active CA `old`, in the row `i`, is replaced by `new`. -/
def swappedRows (rows : List (Option Row)) (i s : Nat) (old new : CaCertificate) (now : Int) :
    List (Option Row) :=
  ((rows ++ [some (Row.ca new)]).set i (some (Row.ca { old with deactivatedAt := some now }))).set s
    (some (Row.setting ⟨.pkiActiveCaFingerprint, .string new.fingerprint⟩))

/-- The committed rows of a CA and of the setting that names it. -/
structure Named (rows : List (Option Row)) (fingerprint : String) (i s : Nat)
    (old : CaCertificate) : Prop where
  ca : CaAt rows i old
  named : old.fingerprint = fingerprint
  setting : SettingAt rows s ⟨.pkiActiveCaFingerprint, .string fingerprint⟩

/-- The CA with the fingerprint has been replaced, and the version bumped. -/
inductive Rotates (rows rows' : List (Option Row)) (fingerprint : String) : Prop
  | intro {i s v old} {new : CaCertificate} {now} (hnamed : Named rows fingerprint i s old)
      (hnew : new.deactivatedAt = none) (hold : CaAt rows' i { old with deactivatedAt := some now })
      (hsetting : SettingAt rows' s ⟨.pkiActiveCaFingerprint, .string new.fingerprint⟩)
      (hversion : SettingAt rows' v
      ⟨.pkiCaVersion, .number (saturatingAdd (loadCaVersion rows) 1)⟩) (hothers : ∀ k ca, k ≠ i →
        (CaAt rows' k ca ↔ CaAt rows k ca ∨ (k = rows.length ∧ ca = new)))

section Swaps

variable {rows : List (Option Row)} {fingerprint : String} {i s : Nat} {old new : CaCertificate}
variable {now : Int}

theorem CaAt.lt (h : CaAt rows i old) : i < rows.length := (List.getElem?_eq_some_iff.mp h).1

variable {setting : GlobalSetting}

theorem SettingAt.lt (h : SettingAt rows i setting) : i < rows.length :=
  (List.getElem?_eq_some_iff.mp h).1

section Named

variable (h : Named rows fingerprint i s old)

include h

theorem Named.ca_append : (rows ++ [some (Row.ca new)])[i]? = some (some (.ca old)) :=
  getElem?_append_of_eq_some h.ca _

theorem Named.setting_set :
    ((rows ++ [some (Row.ca new)]).set i (some (.ca { old with deactivatedAt := some now })))[s]? =
      some (some (.setting ⟨.pkiActiveCaFingerprint, .string fingerprint⟩)) :=
  (getElem?_set_iff_of_ne h.ca_append (by nofun) (by nofun)).mpr
    (getElem?_append_of_eq_some h.setting _)

variable {k : Nat} {ca : CaCertificate}

theorem settingAt_swappedRows_iff (hk : setting.key = .pkiCaVersion) :
    SettingAt (swappedRows rows i s old new now) k setting ↔ SettingAt rows k setting := by
  have hne : ∀ {fingerprint : String}, some (Row.setting setting) ≠
      some (.setting ⟨.pkiActiveCaFingerprint, .string fingerprint⟩) := by
    rintro fingerprint ⟨⟩
    cases hk
  refine (getElem?_set_iff_of_ne h.setting_set hne hne).trans ?_
  refine (getElem?_set_iff_of_ne h.ca_append (by nofun) (by nofun)).trans ?_
  rw [getElem?_concat_eq_some_iff]
  exact or_iff_left (by nofun)

theorem caAt_swappedRows_iff' : CaAt (swappedRows rows i s old new now) k ca ↔
    ((rows ++ [some (Row.ca new)]).set i
      (some (.ca { old with deactivatedAt := some now })))[k]? = some (some (.ca ca)) :=
  getElem?_set_iff_of_ne h.setting_set (by nofun) (by nofun)

theorem caAt_swappedRows_self :
    CaAt (swappedRows rows i s old new now) i { old with deactivatedAt := some now } :=
  (caAt_swappedRows_iff' h).mpr (getElem?_set_self_of_eq_some h.ca_append _)

theorem settingAt_swappedRows_self :
    SettingAt (swappedRows rows i s old new now) s
      ⟨.pkiActiveCaFingerprint, .string new.fingerprint⟩ :=
  getElem?_set_self_of_eq_some h.setting_set _

variable (hnew : new.deactivatedAt = none)

include hnew

/-- Writing the version last completes the rotation. -/
theorem rotates_of_version {rows' v} (now) (hv : rows'[v]? = some (some (.setting
      ⟨.pkiCaVersion, .number (saturatingAdd (loadCaVersion rows) 1)⟩)))
    (hsa : ∀ k, k ≠ v → rows'[k]? = (swappedRows rows i s old new now)[k]?)
    (hf : ∀ ca, ¬ CaAt (swappedRows rows i s old new now) v ca) (hvs : v ≠ s) :
    Rotates rows rows' fingerprint := by
  have hc : ∀ k ca, CaAt rows' k ca ↔ CaAt (swappedRows rows i s old new now) k ca := by
    intro k ca
    by_cases hkv : k = v
    · subst hkv
      constructor
      · intro hat
        exact absurd hv fun hs => hat.not_settingAt hs
      · intro hat
        exact absurd hat (hf ca)
    · rw [CaAt, hsa k hkv, CaAt]
  refine .intro h hnew ((hc _ _).mpr (caAt_swappedRows_self h)) ?_ hv ?_
  · rw [SettingAt, hsa s hvs.symm]
    exact settingAt_swappedRows_self h
  · intro k ca hki
    rw [hc, caAt_swappedRows_iff' h, getElem?_set_ne hki.symm, getElem?_concat_eq_some_iff, CaAt]
    simp [eq_comm]

theorem rotates_of_insert :
    Rotates rows (swappedRows rows i s old new now ++ [some (.setting
      ⟨.pkiCaVersion, .number (saturatingAdd (loadCaVersion rows) 1)⟩)]) fingerprint := by
  have hn : (swappedRows rows i s old new now)[(swappedRows rows i s old new now).length]? =
      none := getElem?_eq_none (Nat.le_refl _)
  refine rotates_of_version (v := (swappedRows rows i s old new now).length) h hnew now ?_ ?_ ?_ ?_
  · simp
  · intro k hkv
    apply ext
    intro row
    rw [getElem?_concat_eq_some_iff]
    exact or_iff_left fun hl => hkv hl.1
  · intro ca hca
    rw [CaAt, hn] at hca
    cases hca
  · have hlt : s < (swappedRows rows i s old new now).length := (settingAt_swappedRows_self h).lt
    omega

end Named

end Swaps

/-! ## Calls in flight -/

variable (rows : List (Option Row)) (expected : String) in
/-- A call that bumps the version, with the version it has read. -/
inductive Bumping : Frame → Prop
  | readVersion : Bumping (.readVersion expected)
  | findVersion : Bumping (.findVersion expected (saturatingAdd (loadCaVersion rows) 1))
  | updateVersion : Bumping (.updateVersion expected (saturatingAdd (loadCaVersion rows) 1))
  | insertVersion : Bumping (.insertVersion expected (saturatingAdd (loadCaVersion rows) 1))

def Frame.ended : Frame → Bool
  | .loadFingerprint _ _ | .loadActive _ _ _ | .loadTrusted _ _ _ _ | .returned _ _ => true
  | _ => false

variable (rows : List (Option Row)) in
/-- What a call knows at the point where it stands, and what it has written. -/
inductive Holds : Task Row Frame → Prop
  | loadCurrent {expected} : Holds ⟨.loadCurrent expected, [], []⟩
  | insertCa {expected} : Holds ⟨.insertCa expected expected, [], []⟩
  | deactivate {expected} {new : CaCertificate} {now} (hnew : new.deactivatedAt = none) :
      Holds ⟨.deactivate expected expected new.fingerprint now, [], [.ca new]⟩
  | swap {expected i old} {new : CaCertificate} {now} (hold : CaAt rows i old)
      (hnamed : old.fingerprint = expected) (hnew : new.deactivatedAt = none) :
      Holds ⟨.swap expected expected new.fingerprint,
        [(i, some (.ca { old with deactivatedAt := some now }))], [.ca new]⟩
  | bumping {f expected i s old} {new : CaCertificate} {now} (hf : Bumping rows expected f)
      (hnamed : Named rows expected i s old) (hnew : new.deactivatedAt = none) : Holds ⟨f,
        [(s, some (.setting ⟨.pkiActiveCaFingerprint, .string new.fingerprint⟩)),
          (i, some (.ca { old with deactivatedAt := some now }))], [.ca new]⟩
  | commitRotation {expected s writes inserts} (hwrote : ∃ v, (s, v) ∈ writes)
      (hsetting : SettingAt rows s ⟨.pkiActiveCaFingerprint, .string expected⟩)
      (hrotates : Rotates rows
        ((⟨.commitRotation expected, writes, inserts⟩ : Task Row Frame).view rows) expected) :
      Holds ⟨.commitRotation expected, writes, inserts⟩
  | abandon {expected writes inserts} : Holds ⟨.abandon expected, writes, inserts⟩
  | dropped {expected writes inserts} : Holds ⟨.dropped expected, writes, inserts⟩
  | ended {f : Frame} (hf : f.ended = true) : Holds ⟨f, [], []⟩

/-- What a step does to the committed rows, and the point it leads to. -/
inductive Effect (rows : List (Option Row)) (f : Frame) : List (Option Row) → Frame → Prop
  | quiet {f' : Frame} (hrotated : f'.rotated = f.rotated) (hexpected : f'.expected = f.expected) :
      Effect rows f rows f'
  | rotated {expected rows'} (hf : f = .commitRotation expected)
      (hrotates : Rotates rows rows' expected) :
      Effect rows f rows' (.loadFingerprint expected true)

theorem sameKey_setting {a : GlobalSetting} {b : GlobalSetting} (h : a.key = b.key) :
    SameKey clash (.setting a) (.setting b) := by
  intro row
  cases row <;> simp [Row.clash, h]

/-- No statement changes a primary key. -/
theorem keepsKeys_step (parses : String → String → Bool) (choice rows f) :
    Database.KeepsKeys clash rows (step parses choice rows f) := by
  unfold step
  split
  · trivial
  split
  · trivial
  fun_cases execute parses choice rows f with
  | case7 _ _ _ _ _ _ hs =>
    exact keepsKeys_update (caAt_of_selectOne hs).1 fun row => by cases row <;> simp [Row.clash]
  | case9 _ _ _ _ _ hs =>
    exact keepsKeys_update (settingAt_of_selectOne hs).1 (sameKey_setting rfl)
  | case13 _ _ _ _ hf =>
    exact keepsKeys_update (settingAt_of_findSetting hf).1 (sameKey_setting rfl)
  | _ => trivial

section Steps

variable {parses : String → String → Bool} {choice : Choice}
variable {db db' : Database Row Frame} {t : Nat} {task : Task Row Frame}

/-- A step of the task number `t`, from the point `f`: its effect, and what the call
knows at the next point. -/
def Advances (db : Database Row Frame) (t : Nat) (f : Frame) (db' : Database Row Frame) : Prop :=
  ∃ task', db'.tasks = db.tasks.set t task' ∧ Effect db.rows f db'.rows task'.frame ∧
    Holds db'.rows task'

section Views

variable (f : Frame) {rows : List (Option Row)} {expected : String} {i s : Nat}
variable {old new : CaCertificate} {now : Int} (h : Named rows expected i s old)

include h

theorem view_bumping :
    (⟨f, [(s, some (.setting ⟨.pkiActiveCaFingerprint, .string new.fingerprint⟩)),
        (i, some (.ca { old with deactivatedAt := some now }))], [.ca new]⟩ :
          Task Row Frame).view rows = swappedRows rows i s old new now := by
  rw [view_write (⟨f, [(i, _)], [.ca new]⟩ : Task Row Frame) h.setting.lt,
    view_write (⟨f, [], [.ca new]⟩ : Task Row Frame) h.ca.lt, view_inserts]
  rfl

end Views

/-- Every step of a call has one of the effects, and leaves the call with what it
knows at the next point. -/
theorem advances_of_applies (hunique : Unique Row.clash db.rows) (hh : Holds db.rows task)
    (h : db.Applies Row.clash t task (step parses choice (task.view db.rows) task.frame) db') :
    Advances db t task.frame db' := by
  unfold step at h
  split at h
  · next hfr =>
    rw [← hfr] at h
    cases h
    exact ⟨task, rfl, .quiet rfl rfl, hh⟩
  split at h
  · cases h
    exact ⟨_, rfl, .quiet rfl rfl, .ended rfl⟩
  cases hh with
  | loadCurrent =>
    simp only [execute] at h
    repeat' split at h
    iterate 2
      cases h
      exact ⟨_, rfl, .quiet rfl rfl, .abandon⟩
    rename_i hc
    obtain rfl := not_not.mp hc
    cases h
    exact ⟨_, rfl, .quiet rfl rfl, .insertCa⟩
  | insertCa =>
    simp only [execute] at h
    split at h
    · cases h
      exact ⟨_, rfl, .quiet rfl rfl, .ended rfl⟩
    · cases h with
      | inserted hfree hfre =>
        rename_i ca _
        exact ⟨_, rfl, .quiet rfl rfl, @Holds.deactivate _ _ (ca.model choice.now) _ rfl⟩
      | refused => exact ⟨_, rfl, .quiet rfl rfl, .dropped⟩
  | deactivate hnew =>
    simp only [view_inserts, execute] at h
    split at h
    · cases h
      exact ⟨_, rfl, .quiet rfl rfl, .abandon⟩
    · rename_i i old hs
      obtain ⟨ho, hfp⟩ := caAt_of_selectOne hs
      cases h with
      | wrote _ hlt =>
        rw [CaAt, getElem?_append_left hlt] at ho
        exact ⟨_, rfl, .quiet rfl rfl, .swap ho (beq_iff_eq.mp hfp) hnew⟩
  | @swap expected i old new now ho hn hnew =>
    simp only [view_singleton, execute] at h
    split at h
    · cases h
      exact ⟨_, rfl, .quiet rfl rfl, .abandon⟩
    · rename_i s setting hs
      obtain ⟨hat, hfo⟩ := settingAt_of_selectOne hs
      obtain ⟨key, value⟩ := setting
      simp only [and_eq_true, beq_iff_eq] at hfo
      obtain ⟨rfl, rfl⟩ := hfo
      cases h
      refine ⟨_, rfl, .quiet rfl rfl, .bumping .readVersion ⟨ho, hn, ?_⟩ hnew⟩
      rcases getElem?_concat_eq_some_iff.mp hat with hat | ⟨-, heq⟩
      · exact (getElem?_set_iff_of_ne ho (by nofun) (by nofun)).mp hat
      · cases heq
  | @bumping f expected i s old new now hf hn hnew =>
    have hi : ∀ k setting, setting.key = .pkiCaVersion →
        (SettingAt (swappedRows db.rows i s old new now) k setting ↔
          SettingAt db.rows k setting) := fun k setting hk =>
      settingAt_swappedRows_iff hn hk
    rw [view_bumping f hn] at h
    cases hf with
    | readVersion =>
      simp only [execute] at h
      rw [loadCaVersion_congr hunique hi] at h
      cases h
      exact ⟨_, rfl, .quiet rfl rfl, .bumping .findVersion hn hnew⟩
    | findVersion =>
      simp only [execute] at h
      split at h
      · cases h
        exact ⟨_, rfl, .quiet rfl rfl, .bumping .updateVersion hn hnew⟩
      · cases h
        exact ⟨_, rfl, .quiet rfl rfl, .bumping .insertVersion hn hnew⟩
    | updateVersion =>
      simp only [execute] at h
      split at h
      · rename_i v setting hfi
        obtain ⟨hat, hk⟩ := settingAt_of_findSetting hfi
        cases h with
        | wrote _ hlt =>
          refine ⟨_, rfl, .quiet rfl rfl, .commitRotation
            ⟨_, mem_cons_of_mem _ mem_cons_self⟩ hn.setting ?_⟩
          dsimp only [setTask]
          rw [view_write ⟨.commitRotation expected, _, _⟩ hlt, view_bumping _ hn]
          refine rotates_of_version (v := v) hn hnew now ?_ ?_ ?_ ?_
          · rw [getElem?_set_self hat.lt, hk]
          · intro k hkv
            rw [getElem?_set_ne (Ne.symm hkv)]
          · intro ca hca
            exact hca.not_settingAt hat
          · rintro rfl
            rw [hat.eq (settingAt_swappedRows_self hn)] at hk
            cases hk
      · cases h
        exact ⟨_, rfl, .quiet rfl rfl, .ended rfl⟩
    | insertVersion =>
      cases h with
      | inserted =>
        refine ⟨_, rfl, .quiet rfl rfl, .commitRotation ⟨_, mem_cons_self⟩ hn.setting ?_⟩
        dsimp only [setTask]
        rw [view_insert ⟨.commitRotation expected, _, _⟩, view_bumping _ hn]
        exact rotates_of_insert hn hnew
      | refused => exact ⟨_, rfl, .quiet rfl rfl, .dropped⟩
  | commitRotation _ _ hrotates =>
    cases h
    exact ⟨_, rfl, .rotated rfl hrotates, .ended rfl⟩
  | abandon | dropped =>
    cases h
    exact ⟨_, rfl, .quiet rfl rfl, .ended rfl⟩
  | @ended f hf =>
    cases f with
    | loadFingerprint | loadActive | loadTrusted =>
      simp only [execute] at h
      split at h <;> cases h <;> exact ⟨_, rfl, .quiet rfl rfl, .ended rfl⟩
    | returned =>
      cases h
      exact ⟨_, rfl, .quiet rfl rfl, .ended rfl⟩
    | _ => cases hf

variable {other : Task Row Frame}

/-- What a call knows stays true when another call takes a step. -/
theorem Holds.others {u act f'} (hk : Holds db.rows other) (he : db.Exclusive)
    (hunique : Unique clash db.rows) (ht : db.tasks[t]? = some task)
    (hh : Holds db.rows task) (ha : db.Applies clash t task act db')
    (hef : Effect db.rows task.frame db'.rows f') (ho : db.tasks[u]? = some other)
    (hne : u ≠ t) : Holds db'.rows other := by
  generalize hr : db'.rows = rows' at hef
  cases hef with
  | quiet => exact hk
  | rotated hf =>
    have hfr : ∀ {s fingerprint},
        SettingAt db.rows s ⟨.pkiActiveCaFingerprint, .string fingerprint⟩ → ¬ other.Wrote s := by
      intro s _ hs hw'
      cases hh with
      | commitRotation hw hs' =>
        obtain rfl := settingAt_unique hunique hs hs' rfl
        exact hne (he u t other _ s ho ht hw' hw)
      | bumping hb => cases hb <;> cases hf
      | ended hen =>
        obtain rfl := hf
        cases hen
      | _ => cases hf
    rw [← hr]
    cases hk with
    | swap hol hn hnew =>
      have hol' := rows_of_locked he ht ha ho hne ⟨_, mem_singleton_self _⟩ hol
      exact .swap hol' hn hnew
    | bumping _ hn => exact absurd ⟨_, mem_cons_self⟩ (hfr hn.setting)
    | commitRotation hw hs => exact absurd hw (hfr hs)
    | _ => constructor <;> assumption

end Steps

/-! ## Runs -/

section Runs

variable {parses : String → String → Bool} {start : List (Option Row)}

/-- The calls with the expected fingerprint whose rotation has been committed. -/
def Frame.rotatedFrom (expected : String) (f : Frame) : Bool := f.rotated && f.expected == expected

/-- The CA that a committed rotation has replaced is there, and deactivated. -/
def Replaced (rows : List (Option Row)) (fingerprint : String) : Prop :=
  ∃ k ca, CaAt rows k ca ∧ ca.fingerprint = fingerprint ∧ ca.deactivatedAt ≠ none

section Rotations

variable {rows rows' : List (Option Row)} {fingerprint : String} {i : Nat} {ca : CaCertificate}
  (hunique : Unique clash rows)

include hunique

/-- The CA that is replaced is the active one. -/
theorem OneActive.named {j s old} (h : OneActive rows i ca)
    (hn : Named rows fingerprint j s old) : j = i ∧ old = ca := by
  have hfp : ca.fingerprint = old.fingerprint := by
    have hl := loadActiveCaFingerprint_eq hunique hn.setting
    rw [h.setting, some.injEq] at hl
    rw [hl, hn.named]
  obtain rfl := caAt_unique hunique h.row hn.ca hfp
  exact ⟨rfl, hn.ca.eq h.row⟩

variable (hrotates : Rotates rows rows' fingerprint)

include hrotates

theorem OneActive.rotates (h : OneActive rows i ca) (hunique' : Unique clash rows') :
    ∃ new, OneActive rows' rows.length new := by
  obtain @⟨j, s, v, old, new, now, hn, hnew, hol, hs, -, hot⟩ := hrotates
  obtain ⟨rfl, rfl⟩ := h.named hunique hn
  have hlt := hn.ca.lt
  refine ⟨new, ?_, hnew, loadActiveCaFingerprint_eq hunique' hs, ?_⟩
  · exact (hot _ _ (by omega)).mpr (.inr ⟨rfl, rfl⟩)
  · intro k other ho ha
    by_cases hkj : k = j
    · subst hkj
      rw [ho.eq hol] at ha
      cases ha
    · rcases (hot k other hkj).mp ho with ho | ⟨rfl, -⟩
      · exact absurd (h.only k other ho ha) hkj
      · rfl

omit hunique in
/-- CAs are not deleted or activated again. -/
theorem Replaced.rotates {replaced} (h : Replaced rows replaced) : Replaced rows' replaced := by
  obtain @⟨j, s, v, old, new, now, hn, -, hol, -, -, ho⟩ := hrotates
  obtain ⟨k, ca, hca, hfp, hd⟩ := h
  by_cases hkj : k = j
  · subst hkj
    obtain rfl := hca.eq hn.ca
    exact ⟨k, _, hol, hfp, some_ne_none _⟩
  · exact ⟨k, ca, (ho k ca hkj).mpr (.inl hca), hfp, hd⟩

omit hunique in
theorem replaced_of_rotates : Replaced rows' fingerprint := by
  obtain ⟨hn, -, ho, -, -, -⟩ := hrotates
  exact ⟨_, _, ho, hn.named, some_ne_none _⟩

/-- The CA that is about to be replaced has not been replaced before. -/
theorem OneActive.not_replaced (h : OneActive rows i ca) : ¬ Replaced rows fingerprint := by
  obtain ⟨hn, -, -, -, -, -⟩ := hrotates
  rintro ⟨k, other, ho, hfp, hd⟩
  obtain ⟨rfl, rfl⟩ := h.named hunique hn
  obtain rfl := caAt_unique hunique ho hn.ca (hfp.trans hn.named.symm)
  rw [ho.eq hn.ca] at hd
  exact hd h.active

omit hunique in
theorem loadCaVersion_of_rotates (hunique' : Unique clash rows') :
    loadCaVersion rows' = saturatingAdd (loadCaVersion rows) 1 := by
  obtain ⟨-, -, -, -, hv, -⟩ := hrotates
  have hb := loadCaVersion_bounds rows
  have hin : -i64Max - 1 ≤ saturatingAdd (loadCaVersion rows) 1 ∧
      saturatingAdd (loadCaVersion rows) 1 ≤ i64Max := by
    unfold saturatingAdd i64Max at *
    omega
  rw [loadCaVersion, findSetting_eq_some hunique' hv, bind_some, SettingValue.asI64,
    if_pos hin, getD_some]

end Rotations

theorem saturatingAdd_saturatingAdd (version : Int) (n : Nat) :
    saturatingAdd (saturatingAdd version n) 1 = saturatingAdd version (n + 1 : Nat) := by
  unfold saturatingAdd
  omega

/-- What holds in every state of a run. -/
structure Coherent (start : List (Option Row)) (db : Database Row Frame) : Prop where
  exclusive : db.Exclusive
  keyed : db.Keyed Row.clash
  holds : db.Each (Holds db.rows)
  active : ∃ i ca, OneActive db.rows i ca
  replaced : ∀ f ∈ db.frames, f.rotated = true → Replaced db.rows f.expected
  version : loadCaVersion db.rows =
    saturatingAdd (loadCaVersion start) (db.frames.countP Frame.rotated)
  once : ∀ expected, db.frames.countP (Frame.rotatedFrom expected) ≤ 1

variable {ca : CaCertificate} {db : Database Row Frame}

theorem Coherent.init (hunique : Unique clash start) {i} (ha : OneActive start i ca) :
    Coherent start ⟨start, []⟩ where
  exclusive := exclusive_init start
  keyed := keyed_init hunique
  holds := each_init start
  active := ⟨i, ca, ha⟩
  replaced := by
    intro f hf
    cases hf
  version := by
    have := loadCaVersion_bounds start
    simp only [frames, map_nil, countP_nil, saturatingAdd]
    omega
  once := by
    intro expected
    exact Nat.zero_le 1

theorem Coherent.started (h : Coherent start db) (expected) :
    Coherent start ((rotations parses).move db (.start expected)) where
  exclusive := exclusive_start h.exclusive expected
  keyed := h.keyed.append _
  holds := h.holds.append .loadCurrent
  active := h.active
  replaced := by
    intro f hf hr
    rcases mem_frames_start.mp hf with hf | rfl
    · exact h.replaced f hf hr
    · cases hr
  version := by
    rw [countP_frames_start rfl]
    exact h.version
  once := by
    intro fingerprint
    rw [countP_frames_start rfl]
    exact h.once fingerprint

theorem Coherent.step {db' t task choice} (h : Coherent start db) (ht : db.tasks[t]? = some task)
    (hac : db.Applies clash t task (step parses choice (task.view db.rows) task.frame) db') :
    Coherent start db' := by
  have hk' : db'.Keyed clash :=
    h.keyed.applies clash_symm h.exclusive ht (keepsKeys_step parses choice _ _) hac
  have hex' := exclusive_applies h.exclusive ht hac
  have hh := h.holds t task ht
  obtain ⟨task', hta, he, hh'⟩ := advances_of_applies h.keyed.rows hh hac
  have hea : db'.Each (Holds db'.rows) := by
    refine h.holds.set hta hh' ?_
    intro u other hne ho hkn
    exact hkn.others h.exclusive h.keyed.rows ht hh hac he ho hne
  have hfr : db'.frames = (db.tasks.set t task').map frame := by
    rw [frames, hta]
  obtain ⟨i, ca, ha⟩ := h.active
  generalize hf' : task'.frame = f' at he
  generalize hro : db'.rows = rows' at he hk'
  cases he with
  | quiet hr hex =>
    refine ⟨hex', hk', hea, ⟨i, ca, hro ▸ ha⟩, ?_, ?_, ?_⟩
    · intro g hg hg'
      rw [hro]
      rcases mem_frames_of_set hta hg with hg | rfl
      · exact h.replaced g hg hg'
      · rw [hf'] at hg' ⊢
        rw [hex]
        exact h.replaced task.frame (frame_mem_frames ht) (hr ▸ hg')
    · rw [hfr, countP_frames_set_of_eq task' ht (by rw [hf', hr]), hro]
      exact h.version
    · intro expected
      refine countP_frames_le_one ht hta (h.once expected) ?_
      rw [hf', Frame.rotatedFrom, hr, hex]
      exact .inl
  | @rotated expected _ hf hrotates =>
    subst hro
    have hq : task.frame.rotated = false := by rw [hf]; rfl
    obtain ⟨new, hnew⟩ := ha.rotates h.keyed.rows hrotates hk'.rows
    refine ⟨hex', hk', hea, ⟨_, new, hnew⟩, ?_, ?_, ?_⟩
    · intro g hg hg'
      rcases mem_frames_of_set hta hg with hg | rfl
      · exact (h.replaced g hg hg').rotates hrotates
      · rw [hf']
        exact replaced_of_rotates hrotates
    · rw [hfr, countP_frames_set task' ht hq, hf',
        loadCaVersion_of_rotates hrotates hk'.rows, h.version]
      exact saturatingAdd_saturatingAdd _ _
    · intro fingerprint
      refine countP_frames_le_one ht hta (h.once fingerprint) ?_
      rw [hf']
      intro heq
      obtain rfl : expected = fingerprint := beq_iff_eq.mp heq
      -- No earlier call has replaced this CA: it is the active one.
      refine .inr ?_
      intro g hg hr
      rw [Frame.rotatedFrom, and_eq_true, beq_iff_eq] at hr
      have hre := h.replaced g hg hr.1
      rw [hr.2] at hre
      exact ha.not_replaced h.keyed.rows hrotates hre

/-- Run lemma: rotations that start with one active CA stay coherent. -/
theorem coherent_run (hunique : Unique clash start) {i} (ha : OneActive start i ca)
    (moves : List (Move String Choice)) :
    Coherent start ((rotations parses).run ⟨start, []⟩ moves) := by
  refine run_invariant ?_ ?_ (Coherent.init hunique ha) moves
  · intro db expected h
    exact h.started expected
  · intro db t choice task db' h ht hac
    exact h.step ht hac

/-- The call has returned `rotated: true`. -/
def Frame.returnedRotated : Frame → Bool
  | .returned _ (.outcome true _) => true
  | _ => false

/-- There is always one active CA, the one that the setting names.  The version counts
the committed rotations: the calls that have returned `rotated`, and those that have
not finished, or have failed, to load the state of the CA after their commit.  No
expected fingerprint is rotated away twice. -/
theorem one_active_ca (hunique : Unique Row.clash start) {i : Nat} {ca : CaCertificate}
    (ha : OneActive start i ca) (moves : List (Move String Choice)) :
    let db := (rotations parses).run ⟨start, []⟩ moves
    (∃ j active, OneActive db.rows j active) ∧
      loadCaVersion db.rows = saturatingAdd (loadCaVersion start) (db.frames.countP Frame.rotated) ∧
      (∀ f ∈ db.frames, f.returnedRotated = true → f.rotated = true) ∧
      ((∀ f ∈ db.frames, f.rotated = true → f.returnedRotated = true) →
        loadCaVersion db.rows =
          saturatingAdd (loadCaVersion start) (db.frames.countP Frame.returnedRotated)) ∧
      ∀ expected, db.frames.countP (Frame.rotatedFrom expected) ≤ 1 := by
  intro db
  have h : Coherent start db := coherent_run hunique ha moves
  have hr : ∀ f : Frame, f.returnedRotated = true → f.rotated = true := by
    intro f hf
    unfold Frame.returnedRotated at hf
    split at hf
    · rfl
    · cases hf
  refine ⟨h.active, h.version, fun f _ => hr f, ?_, h.once⟩
  intro hal
  rw [h.version, countP_congr]
  intro f hf
  exact ⟨hal f hf, hr f⟩

end Runs

/-! ## Two controllers, and one that loses its connection after the commit -/

def oldCa : CaCertificate where
  fingerprint := "old"
  certPem := "old cert"
  keyPem := "old key"
  notBefore := 0
  notAfter := 1000
  activatedAt := 0
  deactivatedAt := none

def managedRows : List (Option Row) :=
  [some (.ca oldCa), some (.setting ⟨.pkiActiveCaFingerprint, .string "old"⟩),
    some (.setting ⟨.pkiCaVersion, .number 1⟩)]

theorem oneActive_managedRows : OneActive managedRows 0 oldCa where
  row := rfl
  active := rfl
  setting := by decide
  only := by
    intro j other ho _
    rcases j with _ | _ | _ | j
    · rfl
    all_goals cases ho

def newCa : Generated := ⟨"new", "new cert", "new key", 10, 2000⟩

/-- Two controllers rotate at the same time, the second while the first holds its
transaction open. -/
def raceMoves : List (Move String Choice) :=
  [.start "old", .start "old", .run 0 {}, .run 1 {},
    .run 0 { now := 10, generated := some newCa },
    .run 1 { now := 11, generated := some { newCa with fingerprint := "newer" } },
    .run 0 {}, .run 1 {}, .run 0 {}, .run 0 {}, .run 0 {}, .run 0 {}, .run 0 {},
    .run 1 {}, .run 1 {}, .run 1 {}]

theorem one_active_ca_race :
    let db := (rotations fun _ _ => true).run ⟨managedRows, []⟩ raceMoves
    db.frames = [.loadFingerprint "old" true, .loadFingerprint "old" false] ∧
      loadCaVersion db.rows = 2 ∧ (∃ j active, OneActive db.rows j active) :=
  ⟨by decide, by decide, (one_active_ca
    (unique_of_pairwise clash_symm (by decide)) oneActive_managedRows raceMoves).1⟩

def commitMoves : List (Move String Choice) :=
  [.start "old", .run 0 {}, .run 0 { now := 10, generated := some newCa }, .run 0 {}, .run 0 {},
    .run 0 {}, .run 0 {}, .run 0 {}, .run 0 {}]

/-- After the commit no transaction is open and the version has grown, but the call has
not returned yet; when it then fails to load the state of the CA, it returns an error.
At the greatest version a rotation is not counted. -/
theorem committed_rotation_not_returned :
    let rotate := fun rows => (rotations fun _ _ => true).run ⟨rows, []⟩
    let committed := rotate managedRows commitMoves
    let failed := rotate managedRows (commitMoves ++ [.run 0 { fails := true }])
    let saturated := managedRows.set 2 (some (.setting ⟨.pkiCaVersion, .number i64Max⟩))
    let full := rotate saturated (commitMoves ++ [.run 0 {}, .run 0 {}, .run 0 { now := 20 }])
    loadCaVersion managedRows = 1 ∧
      (committed.frames = [.loadFingerprint "old" true] ∧ loadCaVersion committed.rows = 2) ∧
      (failed.frames = [.returned "old" (.failed true .database)] ∧ loadCaVersion failed.rows = 2) ∧
      full.frames.countP Frame.returnedRotated = 1 ∧
        loadCaVersion full.rows = loadCaVersion saturated := by
  decide

end Uptrakit.Pki
