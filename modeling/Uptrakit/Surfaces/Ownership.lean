import Uptrakit.Surfaces.RegistryIndexes
import Uptrakit.Surfaces.Resolution

/-!
# Owners of universal surfaces

A registration is refused if a provider of the same effective scope has registered one of its
surfaces and one of the two is universal.  So a universal surface has one provider in an
effective scope (`universal_surface_one_owner_per_scope`).  A tenant sees the surfaces of two
scopes, its own and the global one; a surface that is registered in both has two providers, and
an action without a target goes to the one with the smaller id (`universal_surface_in_two_scopes`).
-/

namespace Uptrakit.Surfaces

open List

variable {config : SurfaceRegistryConfig} {inner : SurfaceRegistryInner}

/-- The provider has registered the surface, and the tenant sees it. -/
def Shows (config : SurfaceRegistryConfig) (entry : ProviderRegistration) (surfaceId : String)
    (tenantId : Uuid) (surface : RegisteredSurface) : Prop :=
  surface ∈ entry.registration.surfaces ∧ surface.descriptor.surfaceId = surfaceId ∧
    surfaceVisibleForTenant config entry.binding surface.descriptor tenantId = true

/-! ## Collisions -/

variable {providerId surfaceId : String} {tenantId : Uuid} {visibility : SurfaceProviderVisibility}
  {summary : SurfaceProviderSummary} {targetProviderId : Option String}

/-- What a registration that is admitted has in common with the others of its scope. -/
theorem not_universal_of_validateContractCollisions {incoming}
    (h : validateContractCollisions config inner incoming = .ok ()) {existing}
    (hne : providerId ≠ incoming.provider.providerId)
    (he : inner.providers.lookup providerId = some existing)
    (hsc : effectiveScopeKey config existing.binding =
    effectiveScopeKey config incoming.effectiveTenantBinding) {surface surface'}
    (hsu : surface ∈ incoming.surfaces) (hsu' : surface' ∈ existing.registration.surfaces)
    (hid : surface'.descriptor.surfaceId = surface.descriptor.surfaceId) :
    surface.descriptor.targeting ≠ .universal ∧ surface'.descriptor.targeting ≠ .universal := by
  unfold validateContractCollisions at h
  split at h
  · cases h
  rename_i key hk
  split at h
  · cases h
  rename_i hn
  rw [findSome?_eq_none_iff] at hn
  have hp := hn surface hsu
  rw [findSome?_eq_none_iff] at hp
  have hc := hp ⟨providerId, existing⟩ (AList.mem_lookup_iff.1 he)
  unfold providerCollision at hc
  rw [if_neg hne, if_neg (not_not.2 (hsc.trans hk)), findSome?_eq_none_iff] at hc
  have hs := hc surface' hsu'
  unfold surfaceCollision at hs
  rw [if_neg (not_not.2 hid)] at hs
  split at hs
  · cases hs
  split at hs
  · cases hs
  · next hu => exact not_or.1 hu

/-! ## One owner in a scope -/

/-- A universal surface has one provider in an effective scope. -/
def OneOwner (config : SurfaceRegistryConfig) (inner : SurfaceRegistryInner) : Prop :=
  ∀ p q entry entry', p ≠ q → inner.providers.lookup p = some entry →
    inner.providers.lookup q = some entry' →
    effectiveScopeKey config entry.binding = effectiveScopeKey config entry'.binding →
    ∀ surface ∈ entry.registration.surfaces, ∀ surface' ∈ entry'.registration.surfaces,
      surface'.descriptor.surfaceId = surface.descriptor.surfaceId →
      surface.descriptor.targeting ≠ .universal

theorem OneOwner.among {a b} (h : OneOwner config b) (hab : Among a b) : OneOwner config a :=
  fun p q entry entry' hne hp hq => h p q entry entry' hne (hab p entry hp) (hab q entry' hq)

/-- An entry is stored that collides with nothing of what is kept. -/
theorem OneOwner.stored {kept} {after : SurfaceRegistryInner} {entry : ProviderRegistration}
    (h : OneOwner config kept)
    (ha : validateContractCollisions config kept entry.registration = .ok ())
    (hl : ∀ p, after.providers.lookup p =
      if p = entry.registration.provider.providerId then some entry
      else kept.providers.lookup p) : OneOwner config after := by
  intro p q e e' hne hp hq hsc surface hs surface' hs' hid
  rw [hl] at hp hq
  by_cases hpn : p = entry.registration.provider.providerId
  · rw [if_pos hpn] at hp
    rw [if_neg fun hqn => hne (hpn.trans hqn.symm)] at hq
    cases hp
    have hqne : q ≠ entry.registration.provider.providerId := fun hqn =>
      hne (hpn.trans hqn.symm)
    exact (not_universal_of_validateContractCollisions ha hqne hq hsc.symm hs hs' hid).1
  · rw [if_neg hpn] at hp
    by_cases hqn : q = entry.registration.provider.providerId
    · rw [if_pos hqn] at hq
      cases hq
      exact (not_universal_of_validateContractCollisions ha hpn hp hsc hs' hs hid.symm).2
    · rw [if_neg hqn] at hq
      exact h p q e e' hne hp hq hsc surface hs surface' hs' hid

theorem oneOwner_exec (hs : Sound inner) (h : OneOwner config inner) (call : Call) :
    OneOwner config (call.exec config inner).2 := by
  have he : Effect config inner (call.exec config inner) := (exec_spec hs call).1
  cases hr : call.exec config inner with
  | mk =>
    rw [hr] at he
    cases he with
    | refused hsa => exact h.among hsa.among
    | stored _ hk ha hl => exact (h.among hk).stored ha hl
    | removed hk => exact h.among hk

theorem oneOwner_registryAfter (events) : OneOwner config (registryAfter config events) := by
  have hst : ∀ inner event, Sound inner ∧ OneOwner config inner →
      Sound (Event.apply config inner event) ∧
        OneOwner config (Event.apply config inner event) := by
    rintro inner event ⟨hs, h⟩
    refine ⟨sound_apply hs event, ?_⟩
    cases event with
    | call call => exact oneOwner_exec hs h call
    | rehash =>
      refine h.among fun p e he => ?_
      rwa [← lookup_rehash]
  have hi : Sound .default ∧ OneOwner config .default := by
    refine ⟨sound_default, ?_⟩
    rintro p q e e' - ⟨⟩
  exact (Concurrent.foldl_invariant hst hi events).2

/-! ## Resolution -/

theorem shows_of_mem_list
    (h : summary ∈ listTargetedProvidersForSurface config inner surfaceId tenantId visibility) :
    ∃ entry surface, inner.providers.lookup summary.providerId = some entry ∧
      Shows config entry surfaceId tenantId surface := by
  obtain ⟨hm, hc⟩ := mem_filter.1 h
  obtain ⟨_, -, hs⟩ := mem_filterMap.1 hm
  obtain ⟨entry, he, hs⟩ := Option.bind_eq_some_iff.1 hs
  dsimp only at hs
  split at hs
  · cases hs
  · obtain ⟨surface, hsu, hs⟩ := Option.bind_eq_some_iff.1 hs
    cases hs
    refine ⟨entry, surface, he, mem_of_find?_eq_some hsu, ?_, hc⟩
    simpa using find?_some hsu

/-- The provider that is selected is a listed one. -/
theorem mem_of_selectProvider {providers selected}
    (h : selectProvider providers targetProviderId = .ok selected) : selected ∈ providers := by
  revert h
  fun_cases selectProvider providers targetProviderId with
  | case2 _ _ _ _ hf =>
    rintro ⟨⟩
    exact mem_of_find?_eq_some hf
  | case6 _ _ _ hc _ _ hh =>
    rintro ⟨⟩
    unfold preferredProviderCandidates at hc
    split at hc
    · cases hc
    · cases hc
      exact (mem_filter.1 (mem_of_head? hh)).1
  | _ => nofun

/-- After any calls, a tenant that sees a universal surface of a provider sees it from no other
provider of the same effective scope; an action without a target goes to this provider, or to one
of another scope that shows the tenant the surface too. -/
theorem universal_surface_one_owner_per_scope (config : SurfaceRegistryConfig)
    (events : List Event) {tenantId : Uuid} {surfaceId providerId : String}
    {entry : ProviderRegistration} {surface : RegisteredSurface}
    (he : (registryAfter config events).providers.lookup providerId = some entry)
    (hs : Shows config entry surfaceId tenantId surface)
    (hu : surface.descriptor.targeting = .universal) :
    (∀ other entry' surface', other ≠ providerId →
      (registryAfter config events).providers.lookup other = some entry' →
      effectiveScopeKey config entry'.binding = effectiveScopeKey config entry.binding →
      ¬ Shows config entry' surfaceId tenantId surface') ∧
    ∀ interactionId method visibility resolved,
      resolveSurfaceActionForMethod config (registryAfter config events) tenantId surfaceId
        interactionId method none visibility = .ok resolved →
      resolved.providerId = providerId ∨ ∃ entry' surface',
        (registryAfter config events).providers.lookup resolved.providerId = some entry' ∧
          Shows config entry' surfaceId tenantId surface' ∧
          effectiveScopeKey config entry'.binding ≠ effectiveScopeKey config entry.binding := by
  refine (and_iff_left_of_imp fun ho => ?_).2 ?_
  · intro interactionId method visibility resolved hr
    unfold resolveSurfaceActionForMethod at hr
    dsimp only at hr
    split at hr
    · cases hr
    split at hr
    · cases hr
    rename_i hse _
    -- The action goes to a provider that shows the surface to the tenant.
    obtain ⟨entry', surface', he', hs'⟩ :=
      shows_of_mem_list (mem_of_selectProvider hse)
    rw [← (of_resolveInteraction hr).1] at he'
    by_cases hne : resolved.providerId = providerId
    · exact .inl hne
    · refine .inr ⟨entry', surface', he', hs', fun hsc => ?_⟩
      exact ho resolved.providerId entry' surface' hne he' hsc hs'
  · intro other entry' surface' hne he' hsc hs'
    refine oneOwner_registryAfter events providerId other entry entry' hne.symm he he'
      hsc.symm surface hs.1 surface' hs'.1 ?_ hu
    exact hs'.2.1.trans hs.2.1.symm

/-! ## A surface in two scopes -/

def openConfig : SurfaceRegistryConfig where
  maxSurfacesPerBatch := 64
  maxInteractionsPerBatch := 256
  checks := ⟨fun _ => [], fun _ => [], fun _ _ => [], fun _ => [], fun _ => []⟩
  parseUuid text := if text = "tenant-1" then some 1 else none
  parseAction _ := none

def dashboard (kind : ProviderKind) (scope : Scope) : RegisteredSurface where
  descriptor := ⟨"tools.dashboard", scope, .universal, none, kind, ""⟩
  interactions := [⟨"refresh", .mutationAction, .post, none, [], .providerProxied, false, ""⟩]
  dataSources := []

def pluginDashboard : SurfaceRegistration where
  provider := ⟨"plugin.tools", .plugin⟩
  effectiveTenantBinding := ⟨.global, none⟩
  surfaces := [dashboard .plugin .global]
  encryptionMetadata := none

def serviceDashboard (providerId : String) : SurfaceRegistration where
  provider := ⟨providerId, .service⟩
  effectiveTenantBinding := ⟨.tenant, some "tenant-1"⟩
  surfaces := [dashboard .service .tenant]
  encryptionMetadata := none

/-- A plugin for all tenants and a service of one tenant. -/
def twoScopes : List Event :=
  [.call (.bootstrapPlugin pluginDashboard),
    .call (.registerService 7 "tools" (some 1) (serviceDashboard "service.tools"))]

/-- The tenant sees the universal surface of both, and actions without a target go to the
plugin. -/
theorem universal_surface_in_two_scopes :
    let inner := registryAfter openConfig twoScopes
    (listTargetedProvidersForSurface openConfig inner "tools.dashboard" 1 fun _ => true).map
        (fun provider => (provider.providerId, provider.targeting)) =
      [("plugin.tools", .universal), ("service.tools", .universal)] ∧
    (resolveSurfaceActionForMethod openConfig inner 1 "tools.dashboard" "refresh" none none
      fun _ => true).toOption.map (·.providerId) = some "plugin.tools" := by
  decide +kernel

/-- Two services of the tenant with the same surface; the second one is refused. -/
def oneScope : List Event :=
  [.call (.registerService 7 "tools" (some 1) (serviceDashboard "service.tools")),
    .call (.registerService 8 "tools" (some 1) (serviceDashboard "service.other"))]

def toolsEntry : ProviderRegistration :=
  ⟨serviceDashboard "service.tools", some 7, some "tools", [⟨none, [none]⟩]⟩

theorem lookup_oneScope :
    (registryAfter openConfig oneScope).providers.lookup "service.tools" = some toolsEntry := by
  decide +kernel

theorem universal_surface_one_owner_in_oneScope :
    (registryAfter openConfig oneScope).providers.lookup "service.other" = none ∧
    ∀ other entry' surface', other ≠ "service.tools" →
      (registryAfter openConfig oneScope).providers.lookup other = some entry' →
      effectiveScopeKey openConfig entry'.binding =
        effectiveScopeKey openConfig toolsEntry.binding →
      ¬ Shows openConfig entry' "tools.dashboard" 1 surface' :=
  ⟨by decide +kernel, (universal_surface_one_owner_per_scope openConfig oneScope lookup_oneScope
    ⟨mem_singleton_self _, rfl, by decide⟩ rfl).1⟩

end Uptrakit.Surfaces
