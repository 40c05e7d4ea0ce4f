import Uptrakit.Concurrent.Run
import Uptrakit.Surfaces.Registry

/-!
# The maps of the surface registry agree

The map of the services and the map of the surfaces are determined by the registrations
(`Agree`).  A service that comes with a new provider id is unbound from the old one first; the
two maps agree in between, so that putting the old registration back gives the maps of before
(`Agree.same`).  The last check of `register_service`, which does not put it back, is never
reached with another outcome than that of the check before (`registerService_spec`).
-/

namespace Uptrakit.Surfaces

open Data Option Function

/-! ## Agreement -/

/-- The other two maps say what the registrations say. -/
structure Agree (inner : SurfaceRegistryInner) : Prop where
  surfaces : ∀ surfaceId providerId, providerId ∈ inner.surfaceToProviders.get surfaceId ↔
    ∃ entry, inner.providers.lookup providerId = some entry ∧
      surfaceId ∈ entry.registration.surfaceIds
  noEmpty : inner.surfaceToProviders.NoEmpty
  services : ∀ serviceId providerId, inner.serviceToProvider serviceId = some providerId ↔
    ∃ entry, inner.providers.lookup providerId = some entry ∧ entry.serviceId = some serviceId

/-- The three maps are the same. -/
structure Same (a b : SurfaceRegistryInner) : Prop where
  providers : ∀ providerId, a.providers.lookup providerId = b.providers.lookup providerId
  serviceToProvider : a.serviceToProvider = b.serviceToProvider
  surfaceToProviders : a.surfaceToProviders = b.surfaceToProviders

theorem Same.refl (inner) : Same inner inner := ⟨fun _ => rfl, rfl, rfl⟩

variable {config : SurfaceRegistryConfig} {inner : SurfaceRegistryInner}

variable {a b : SurfaceRegistryInner} {providerId : String} {entry : ProviderRegistration}
  {serviceId : Uuid} {registration : SurfaceRegistration}

/-- The registrations determine the other two maps. -/
theorem Agree.same (ha : Agree a) (hb : Agree b)
    (hp : ∀ providerId, a.providers.lookup providerId = b.providers.lookup providerId) :
    Same a b where
  providers := hp
  serviceToProvider := by
    funext serviceId
    refine ext fun providerId => ?_
    rw [ha.services, hb.services, hp]
  surfaceToProviders := by
    refine ha.noEmpty.ext hb.noEmpty fun surfaceId => ?_
    ext providerId
    rw [ha.surfaces, hb.surfaces, hp]

def SurfaceRegistryInner.owner (inner : SurfaceRegistryInner) (providerId : String) : Option Uuid :=
  (inner.providers.lookup providerId).bind (·.serviceId)

theorem inverse_iff : Inverse inner.serviceToProvider inner.owner ↔
    ∀ serviceId providerId, inner.serviceToProvider serviceId = some providerId ↔
      ∃ entry, inner.providers.lookup providerId = some entry ∧
        entry.serviceId = some serviceId := by
  simp only [Inverse, SurfaceRegistryInner.owner, bind_eq_some_iff]

theorem agree_default : Agree .default where
  surfaces surfaceId providerId := by
    simp [SurfaceRegistryInner.default, SetIndex.get, SetIndex.empty]
  noEmpty := SetIndex.NoEmpty.empty
  services serviceId providerId := by simp [SurfaceRegistryInner.default]

/-! ## The operations on the maps -/

theorem lookup_upsertProvider (inner providerId entry other) :
    (upsertProvider inner providerId entry).providers.lookup other =
      if other = providerId then some entry else inner.providers.lookup other := by
  split
  · next h =>
      subst h
      exact AList.lookup_insert _
  · next h => exact AList.lookup_insert_ne h

theorem lookup_removeProvider (inner providerId other) :
    (removeProvider inner providerId).providers.lookup other =
      if other = providerId then none else inner.providers.lookup other := by
  split
  · next h =>
      subst h
      exact AList.lookup_erase _ _
  · next h => exact AList.lookup_erase_ne h

/-- The index of the surfaces after an insertion. -/
theorem mem_surfaces_upsertProvider (h : Agree inner) {surfaceId other} :
    other ∈ (upsertProvider inner providerId entry).surfaceToProviders.get surfaceId ↔
      ∃ e, (upsertProvider inner providerId entry).providers.lookup other = some e ∧
        surfaceId ∈ e.registration.surfaceIds := by
  rw [lookup_upsertProvider]
  unfold upsertProvider
  rw [SetIndex.mem_get_foldl_insertAt, SetIndex.get_without, Finset.mem_erase, h.surfaces]
  by_cases ho : other = providerId
  · simp [ho]
  · simp [ho]

theorem noEmpty_upsertProvider (inner providerId entry) :
    (upsertProvider inner providerId entry).surfaceToProviders.NoEmpty :=
  (SetIndex.NoEmpty.without _ _).foldl_insertAt _ _

theorem owner_upsertProvider (inner providerId entry) :
    (upsertProvider inner providerId entry).owner =
      update inner.owner providerId entry.serviceId := by
  funext other
  unfold SurfaceRegistryInner.owner
  rw [lookup_upsertProvider, update_apply]
  split <;> rfl

def bindService (inner : SurfaceRegistryInner) (serviceId : Uuid) (providerId : String)
    (entry : ProviderRegistration) : SurfaceRegistryInner :=
  upsertProvider { inner with
    serviceToProvider := Function.update inner.serviceToProvider serviceId (some providerId) }
    providerId entry

theorem lookup_bindService (inner serviceId providerId entry other) :
    (bindService inner serviceId providerId entry).providers.lookup other =
      if other = providerId then some entry else inner.providers.lookup other :=
  lookup_upsertProvider _ _ _ _

theorem agree_bindService (h : Agree inner) (hen : entry.serviceId = some serviceId)
    (hex : ∀ e, inner.providers.lookup providerId = some e → e.serviceId = some serviceId)
    (hse : ∀ p, inner.serviceToProvider serviceId = some p → p = providerId) :
    Agree (bindService inner serviceId providerId entry) where
  surfaces _ _ := mem_surfaces_upsertProvider h
  noEmpty := noEmpty_upsertProvider _ _ _
  services := by
    unfold bindService
    rw [← inverse_iff, owner_upsertProvider, hen]
    refine (inverse_iff.2 h.services).link hse ?_
    intro s hs
    obtain ⟨e, he, hes⟩ := bind_eq_some_iff.1 hs
    exact some.inj (hes.symm.trans (hex e he))

theorem agree_removeProvider (h : Agree inner) (providerId) :
    Agree (removeProvider inner providerId) where
  surfaces surfaceId other := by
    rw [lookup_removeProvider]
    show other ∈ (inner.surfaceToProviders.without providerId).get surfaceId ↔ _
    rw [SetIndex.get_without, Finset.mem_erase, h.surfaces]
    by_cases ho : other = providerId
    · simp [ho]
    · simp [ho]
  noEmpty := SetIndex.NoEmpty.without _ _
  services := by
    have how : (removeProvider inner providerId).owner = update inner.owner providerId none := by
      funext other
      unfold SurfaceRegistryInner.owner
      rw [lookup_removeProvider, update_apply]
      split <;> rfl
    rw [← inverse_iff, how]
    unfold removeProvider
    split
    · exact (inverse_iff.2 h.services).unlink ‹_›
    · rw [← show inner.owner providerId = none from ‹_›, update_eq_self]
      exact inverse_iff.2 h.services

theorem lookup_rehash (inner) (order : List (Sigma fun _ : String => ProviderRegistration))
    (providerId) :
    (rehash inner order).providers.lookup providerId = inner.providers.lookup providerId := by
  unfold rehash
  split
  · next h => exact AList.perm_lookup h
  · rfl

/-! ## Services that change their provider id -/

/-- What holds besides: an entry without a service has no app name, and only entries of kind
`Service` have a service. -/
structure Sound (inner : SurfaceRegistryInner) : Prop extends Agree inner where
  unbound : ∀ providerId entry, inner.providers.lookup providerId = some entry →
    entry.serviceId = none → entry.serviceAppName = none
  kind : ∀ providerId entry, inner.providers.lookup providerId = some entry →
    entry.registration.provider.providerKind ≠ .service → entry.serviceId = none

theorem Agree.of_same (h : Same a b) (hb : Agree b) : Agree a where
  surfaces surfaceId providerId := by
    rw [h.surfaceToProviders, h.providers]
    exact hb.surfaces surfaceId providerId
  noEmpty := h.surfaceToProviders ▸ hb.noEmpty
  services serviceId providerId := by
    rw [h.serviceToProvider, h.providers]
    exact hb.services serviceId providerId

/-- The registrations of `a` are among those of `b`. -/
def Among (a b : SurfaceRegistryInner) : Prop :=
  ∀ providerId entry, a.providers.lookup providerId = some entry →
    b.providers.lookup providerId = some entry

theorem Same.among (h : Same a b) : Among a b := by
  intro providerId entry he
  rw [← h.providers]
  exact he

theorem Sound.among (hb : Sound b) (ha : Agree a) (h : Among a b) : Sound a where
  toAgree := ha
  unbound providerId entry he := hb.unbound providerId entry (h _ _ he)
  kind providerId entry he := hb.kind providerId entry (h _ _ he)

theorem among_removeProvider (inner providerId) :
    Among (removeProvider inner providerId) inner := by
  intro other entry he
  rw [lookup_removeProvider] at he
  split at he
  · cases he
  · exact he

/-- The registry without the old provider, and with it again. -/
theorem rotate_spec (h : Agree inner) (serviceId providerId) :
    let backup := rotationBackup inner serviceId providerId
    let rotated := rotate inner backup
    Agree rotated ∧ Among rotated inner ∧
      (∀ p, rotated.serviceToProvider serviceId = some p → p = providerId) ∧
      Same (restore rotated serviceId backup) inner := by
  intro backup rotated
  cases hb : backup with
  | none =>
    simp only [rotated, hb, rotate]
    refine ⟨h, fun _ _ => id, ?_, .refl inner⟩
    intro p hp
    by_contra hne
    obtain ⟨entry, hen, -⟩ := (h.services serviceId p).1 hp
    simp [backup, rotationBackup, hp, hne, hen] at hb
  | some =>
    obtain ⟨old, ho, hm⟩ := bind_eq_some_iff.1 hb
    obtain ⟨entry, hen, rfl⟩ := map_eq_some_iff.1 hm
    obtain ⟨_, hfo, he⟩ :=
      (h.services serviceId old).1 (filter_eq_some_iff.1 ho).1
    obtain rfl := some.inj (hen.symm.trans hfo)
    have ha := agree_removeProvider h old
    have hf : (removeProvider inner old).serviceToProvider serviceId = none := by
      simp [removeProvider, hen, he]
    simp only [rotated, hb, rotate, hf]
    refine ⟨ha, among_removeProvider inner old, nofun, ?_⟩
    show Same (bindService (removeProvider inner old) serviceId old entry) inner
    refine (agree_bindService ha he ?_ ?_).same h ?_
    · simp [lookup_removeProvider]
    · simp [hf]
    · intro p
      rw [lookup_bindService, lookup_removeProvider]
      split
      · next hp => rw [hp, hen]
      · rfl

/-! ## Calls -/

variable (config : SurfaceRegistryConfig) (before : SurfaceRegistryInner) in
/-- What a call does to the registrations: it fails and leaves everything as it was, it stores an
entry that collides with nothing of what is kept, or it removes registrations. -/
inductive Effect : Except SurfaceRegistryError Unit × SurfaceRegistryInner → Prop
  | refused {error after} (hsame : Same after before) : Effect (.error error, after)
  | stored {kept} {after : SurfaceRegistryInner} (entry : ProviderRegistration)
      (hkept : Among kept before)
      (hadmitted : validateContractCollisions config kept entry.registration = .ok ())
      (hlookup : ∀ p, after.providers.lookup p =
        if p = entry.registration.provider.providerId then some entry
        else kept.providers.lookup p) : Effect (.ok (), after)
  | removed {after} (hkept : Among after before) : Effect (.ok (), after)

theorem eq_nil_of_rejectUnless {reasons} (h : rejectUnless providerId reasons = .ok ()) :
    reasons = [] := by
  unfold rejectUnless at h
  split at h
  · assumption
  · cases h

theorem admission_service {serviceAppName}
    (hu : ∀ providerId entry, inner.providers.lookup providerId = some entry →
      entry.serviceId = none → entry.serviceAppName = none)
    (h : validateRegistrationAdmission config inner registration (some serviceId)
      (some serviceAppName) = .ok ()) :
    validateContractCollisions config inner registration = .ok () ∧
      ∀ existing, inner.providers.lookup registration.provider.providerId = some existing →
        existing.serviceId = some serviceId := by
  unfold validateRegistrationAdmission at h
  dsimp only [bind_some] at h
  split at h
  · cases h
  · next hc =>
      refine ⟨h, fun existing he => ?_⟩
      simp only [bindingConflict, he] at hc
      split at hc
      · cases hc
      · next hf =>
          split at hc
          · cases hc
          · next ha =>
              cases hs : existing.serviceId with
              | none =>
                rw [hu _ existing he hs] at ha
                exact absurd (some_ne_none _).symm ha
              | some =>
                rw [hs] at hf
                simpa using hf

theorem Sound.stored {kept after} (hk : Sound kept) (ha : Agree after)
    (hl : ∀ p, after.providers.lookup p =
      if p = providerId then some entry else kept.providers.lookup p)
    (hu : entry.serviceId = none → entry.serviceAppName = none)
    (hki : entry.registration.provider.providerKind ≠ .service → entry.serviceId = none) :
    Sound after where
  toAgree := ha
  unbound p e he := by
    rw [hl] at he
    split at he
    · cases he
      exact hu
    · exact hk.unbound p e he
  kind p e he := by
    rw [hl] at he
    split at he
    · cases he
      exact hki
    · exact hk.kind p e he

variable (h : Sound inner)

include h

theorem registerService_spec (serviceId : Uuid) (serviceAppName : String)
    (serviceTenantId : Option Uuid) (registration : SurfaceRegistration) :
    let result :=
      registerService config serviceId serviceAppName serviceTenantId registration inner
    Effect config inner result ∧ Sound result.2 := by
  obtain ⟨hag, ham, hse, hr⟩ :=
    rotate_spec h.toAgree serviceId registration.provider.providerId
  have hs : Sound (rotate inner _) := h.among hag ham
  have hre : Sound (restore _ serviceId _) :=
    h.among (.of_same hr h.toAgree) hr.among
  show Effect config inner (registerService _ _ _ _ _ _) ∧ Sound (registerService _ _ _ _ _ _).2
  fun_cases registerService config serviceId serviceAppName serviceTenantId registration inner with
  | case1 => exact ⟨.refused (.refl inner), h⟩
  | case2 | case3 => exact ⟨.refused hr, hre⟩
  | case4 _ _ _ _ _ ha _ _ ho =>
    -- Admission has looked at the same entry.
    obtain ⟨existing, hf, hne⟩ := (any_eq_true _ _).1 ho
    rw [(admission_service hs.unbound ha).2 existing hf] at hne
    simp at hne
  | case5 hb _ _ _ _ ha surfaceActions =>
    obtain ⟨hc, he⟩ := admission_service hs.unbound ha
    refine ⟨.stored ⟨normalizeInteractionMethods registration, some serviceId, some serviceAppName,
      surfaceActions⟩ ham hc fun p => lookup_bindService _ _ _ _ p, ?_⟩
    refine hs.stored (agree_bindService hag rfl he hse)
      (fun p => lookup_bindService _ _ _ _ p) ?_ ?_
    · exact fun hn => absurd hn (some_ne_none serviceId)
    · have hni := eq_nil_of_rejectUnless hb
      simp only [List.append_eq_nil_iff] at hni
      obtain ⟨⟨⟨⟨⟨⟨⟨hk, -⟩, -⟩, -⟩, -⟩, -⟩, -⟩, -⟩ := hni
      intro (hne : registration.provider.providerKind ≠ .service)
      rw [if_pos hne] at hk
      cases hk

theorem bootstrap_spec {kind} (hk : kind ≠ .service) (label registration) :
    let result := bootstrap config kind label registration inner
    Effect config inner result ∧ Sound result.2 := by
  show Effect config inner (bootstrap _ _ _ _ _) ∧ Sound (bootstrap _ _ _ _ _).2
  fun_cases bootstrap config kind label registration inner with
  | case5 _ _ _ ha surfaceActions _ hex =>
    have hs : ∀ e, inner.providers.lookup registration.provider.providerId = some e →
        e.serviceId = none := by
      intro e he
      rw [he] at hex
      refine h.kind _ e he ?_
      have hek : e.registration.provider.providerKind = kind := by simpa using hex
      rwa [hek]
    refine ⟨.stored ⟨normalizeInteractionMethods registration, none, none, surfaceActions⟩
      (fun _ _ => id) ha fun p => lookup_upsertProvider _ _ _ p, ?_⟩
    refine h.stored ⟨fun _ _ => mem_surfaces_upsertProvider h.toAgree,
      noEmpty_upsertProvider _ _ _, ?_⟩ (fun p => lookup_upsertProvider _ _ _ p)
      (fun _ => rfl) fun _ => rfl
    have hn : inner.owner registration.provider.providerId = none := bind_eq_none_iff.2 hs
    rw [← inverse_iff, owner_upsertProvider, ← hn, update_eq_self]
    exact inverse_iff.2 h.services
  | _ => exact ⟨.refused (.refl inner), h⟩

theorem unregisterService_spec (serviceId) : Among (unregisterService serviceId inner) inner ∧
      Sound (unregisterService serviceId inner) := by
  unfold unregisterService
  cases hs : inner.serviceToProvider serviceId with
  | none =>
    have hu : update inner.serviceToProvider serviceId none = inner.serviceToProvider := by
      rw [← hs, update_eq_self]
    rw [hu]
    exact ⟨fun _ _ => id, h⟩
  | some providerId =>
    obtain ⟨entry, hen, he⟩ := (h.services serviceId providerId).1 hs
    have ha := among_removeProvider inner providerId
    have hso := h.among (agree_removeProvider h.toAgree providerId) ha
    unfold removeProvider at ha hso ⊢
    simpa [hen, he] using And.intro ha hso

theorem exec_spec (call : Call) :
    Effect config inner (call.exec config inner) ∧ Sound (call.exec config inner).2 := by
  cases call with
  | bootstrapBuiltin registration | bootstrapPlugin registration =>
    exact bootstrap_spec h (by decide) _ registration
  | registerService serviceId serviceAppName serviceTenantId registration =>
    exact registerService_spec h serviceId serviceAppName serviceTenantId registration
  | unregisterService serviceId =>
    obtain ⟨ha, hs⟩ := unregisterService_spec h serviceId
    exact ⟨.removed ha, hs⟩

theorem sound_apply (event : Event) : Sound (event.apply config inner) := by
  cases event with
  | call call => exact (exec_spec h call).2
  | rehash order =>
    show Sound (rehash inner order)
    refine h.among ⟨fun surfaceId providerId => ?_, ?_, fun serviceId providerId => ?_⟩
      fun p e he => by rwa [← lookup_rehash]
    · rw [lookup_rehash, ← h.surfaces]
      unfold rehash
      split <;> rfl
    · unfold rehash
      split
      · exact h.noEmpty
      · exact h.noEmpty
    · rw [lookup_rehash, ← h.services]
      unfold rehash
      split <;> rfl

omit h

theorem sound_default : Sound .default where
  toAgree := agree_default
  unbound := by rintro p e ⟨⟩
  kind := by rintro p e ⟨⟩

theorem sound_registryAfter (events) : Sound (registryAfter config events) := by
  have hs : ∀ inner event, Sound inner → Sound (Event.apply config inner event) :=
    fun _ event h => sound_apply h event
  exact Concurrent.foldl_invariant hs sound_default events

/-- After any calls the maps agree, and a call that fails leaves them as they are. -/
theorem registry_agrees_and_is_atomic (config : SurfaceRegistryConfig) (events : List Event) :
    let inner := registryAfter config events
    Agree inner ∧
      (∀ s s' providerId, inner.serviceToProvider s = some providerId →
        inner.serviceToProvider s' = some providerId → s = s') ∧
      ∀ (call : Call) (error : SurfaceRegistryError), (call.exec config inner).1 = .error error →
        Same (call.exec config inner).2 inner := by
  intro inner
  have h : Sound inner := sound_registryAfter events
  refine ⟨h.toAgree, ?_, ?_⟩
  · intro s s' providerId hs hs'
    have ho := inverse_iff.2 h.services
    exact some.inj (((ho s providerId).1 hs).symm.trans ((ho s' providerId).1 hs'))
  · intro call error her
    have he : Effect config inner (call.exec config inner) := (exec_spec h call).1
    cases hr : call.exec config inner with
    | mk =>
      rw [hr] at he her
      cases he with
      | refused hsa => exact hsa
      | stored | removed => cases her

end Uptrakit.Surfaces
