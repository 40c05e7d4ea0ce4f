import Mathlib.Data.List.Sort
import Uptrakit.Surfaces.Registry

/-!
# Resolution of surface actions

Which providers of a surface a tenant sees, and which of them an action goes to
(`crates/ui/surface-proxy/src/registry.rs`).  Without a target the first of the providers in the
order of their ids is taken, if none of them is targeted.
-/

namespace Uptrakit.Surfaces

open Access (Action)
open Data

structure SurfaceProviderSummary where
  providerId : String
  providerKind : ProviderKind
  tenantCompatible : Bool
  targeting : Targeting
  serviceId : Option Uuid
  serviceAppName : Option String
  encryptionMetadata : Option String

structure ResolvedSurfaceAction where
  providerId : String
  providerKind : ProviderKind
  serviceId : Option Uuid
  serviceAppName : Option String
  descriptor : SurfaceDescriptor
  interaction : InteractionDescriptor
  encryptionMetadata : Option String
  descriptorRequiredAction : Option Action
  interactionRequiredAction : Option Action
  deriving DecidableEq

inductive SurfaceRegistryLookupError
  | surfaceNotFound
  | interactionNotFound
  | targetProviderRequired
  | invalidProvider (providerId : String)
  | noTenantCompatibleProvider
  | methodNotAllowed (allowed : List InteractionHttpMethod)
      (descriptorRequiredAction : Option Action)
      (interactionRequiredActions : List (Option Action))

/-- `plugin_provider_visible`. -/
abbrev SurfaceProviderVisibility := String → Bool

def surfaceVisibleForTenant (config : SurfaceRegistryConfig) (binding : EffectiveTenantBinding)
    (descriptor : SurfaceDescriptor) (tenantId : Uuid) : Bool :=
  let bindingTenantId := binding.tenantId.bind config.parseUuid
  if binding.scope = .tenant ∧ bindingTenantId ≠ some tenantId then false
  else
    match descriptor.scope with
    | .global => true
    | .tenant => binding.scope = .tenant ∧ bindingTenantId = some tenantId

def SurfaceRegistration.surface? (registration : SurfaceRegistration) (surfaceId : String) :
    Option RegisteredSurface :=
  registration.surfaces.find? (·.descriptor.surfaceId == surfaceId)

section Lookup

variable (config : SurfaceRegistryConfig)

/-- The summary of a provider for a surface, unless the provider is hidden. -/
def providerSummary (inner : SurfaceRegistryInner) (surfaceId : String) (tenantId : Uuid)
    (visibility : SurfaceProviderVisibility) (providerId : String) :
    Option SurfaceProviderSummary := do
  let provider ← inner.providers.lookup providerId
  let identity := provider.registration.provider
  if identity.providerKind = .plugin ∧ visibility providerId = false then none
  let surface ← provider.registration.surface? surfaceId
  return {
    providerId
    providerKind := identity.providerKind
    tenantCompatible := surfaceVisibleForTenant config provider.binding surface.descriptor tenantId
    targeting := surface.descriptor.targeting
    serviceId := provider.serviceId
    serviceAppName := provider.serviceAppName
    encryptionMetadata := provider.registration.encryptionMetadata }

/-- The providers of the index that are stored, in the order of their ids. -/
def indexedProviders (inner : SurfaceRegistryInner) (surfaceId : String) : List String :=
  (inner.providers.keys.filter (· ∈ inner.surfaceToProviders.get surfaceId)).insertionSort
    fun a b => a.toList ≤ b.toList

def listTargetedProvidersForSurface (inner : SurfaceRegistryInner) (surfaceId : String)
    (tenantId : Uuid) (visibility : SurfaceProviderVisibility) : List SurfaceProviderSummary :=
  ((indexedProviders inner surfaceId).filterMap
    (providerSummary config inner surfaceId tenantId visibility)).filter (·.tenantCompatible)

def preferredProviderCandidates (providers : List SurfaceProviderSummary) :
    Except SurfaceRegistryLookupError (List SurfaceProviderSummary) :=
  match providers.filter (·.tenantCompatible) with
  | [] => .error .noTenantCompatibleProvider
  | candidates => .ok candidates

def selectProvider (providers : List SurfaceProviderSummary) (targetProviderId : Option String) :
    Except SurfaceRegistryLookupError SurfaceProviderSummary :=
  match providers with
  | [] => .error .surfaceNotFound
  | providers =>
    match targetProviderId with
    | some target =>
      match providers.find? (·.providerId == target) with
      | some provider => .ok provider
      | none => .error (.invalidProvider target)
    | none =>
      match preferredProviderCandidates providers with
      | .error error => .error error
      | .ok candidates =>
        if candidates.any (·.targeting == .targeted) then .error .targetProviderRequired
        else
          match candidates.head? with
          | some provider => .ok provider
          | none => .error .noTenantCompatibleProvider

def knownInteractionHttpMethods : List InteractionHttpMethod := [.get, .post, .put, .delete]

def interactionAction (actionSet : Option SurfaceActionSet) (i : Nat) : Option Action :=
  actionSet.bind fun actions => (actions.interactions[i]?).join

/-- The methods are listed in the order of `knownInteractionHttpMethods`. -/
def methodNotAllowedError (actionSet : Option SurfaceActionSet)
    (candidates : List (InteractionDescriptor × Nat)) : SurfaceRegistryLookupError :=
  let found := knownInteractionHttpMethods.filterMap fun known =>
    (candidates.find? (·.1.httpMethod == known)).map fun candidate => (known, candidate.2)
  .methodNotAllowed (found.map (·.1)) (actionSet.bind (·.descriptor))
    (found.map fun method => interactionAction actionSet method.2)

/-- The interaction with the id and the method; without a method there must be one only. -/
def selectInteraction (actionSet : Option SurfaceActionSet)
    (matching : List (InteractionDescriptor × Nat)) (method : Option InteractionHttpMethod) :
    Except SurfaceRegistryLookupError (InteractionDescriptor × Nat) :=
  match method with
  | some requested =>
    match matching.find? (·.1.httpMethod == requested) with
    | some found => .ok found
    | none =>
      if matching = [] then .error .interactionNotFound
      else .error (methodNotAllowedError actionSet matching)
  | none =>
    match matching with
    | [] => .error .interactionNotFound
    | [single] => .ok single
    | _ => .error (methodNotAllowedError actionSet matching)

/-- The second part of the resolution, which takes the lock again. -/
def resolveInteraction (inner : SurfaceRegistryInner) (selected : SurfaceProviderSummary)
    (surfaceId interactionId : String) (method : Option InteractionHttpMethod) :
    Except SurfaceRegistryLookupError ResolvedSurfaceAction :=
  match inner.providers.lookup selected.providerId with
  | none => .error .surfaceNotFound
  | some provider =>
    match provider.registration.surfaces.zipIdx.find?
        (·.1.descriptor.surfaceId == surfaceId) with
    | none => .error .surfaceNotFound
    | some (surface, surfaceIdx) =>
      let matching := surface.interactions.zipIdx.filter (·.1.interactionId == interactionId)
      let actionSet := provider.surfaceActions[surfaceIdx]?
      (selectInteraction actionSet matching method).map fun (interaction, i) =>
        { providerId := selected.providerId
          providerKind := selected.providerKind
          serviceId := selected.serviceId
          serviceAppName := provider.serviceAppName
          descriptor := surface.descriptor
          interaction
          encryptionMetadata := selected.encryptionMetadata
          descriptorRequiredAction := actionSet.bind (·.descriptor)
          interactionRequiredAction := interactionAction actionSet i }

def resolveSurfaceActionForMethod (inner : SurfaceRegistryInner) (tenantId : Uuid)
    (surfaceId interactionId : String) (method : Option InteractionHttpMethod)
    (targetProviderId : Option String) (visibility : SurfaceProviderVisibility) :
    Except SurfaceRegistryLookupError ResolvedSurfaceAction :=
  let providers := listTargetedProvidersForSurface config inner surfaceId tenantId visibility
  match selectProvider providers targetProviderId with
  | .error error => .error error
  | .ok selected =>
    if selected.tenantCompatible = false then .error .noTenantCompatibleProvider
    else resolveInteraction inner selected surfaceId interactionId method

end Lookup

/-! ## What is resolved -/

variable {method : Option InteractionHttpMethod} {inner : SurfaceRegistryInner}
  {surfaceId interactionId : String} {resolved : ResolvedSurfaceAction}

theorem mem_of_selectInteraction {actionSet candidates found}
    (h : selectInteraction actionSet candidates method = .ok found) : found ∈ candidates := by
  revert h
  fun_cases selectInteraction actionSet candidates method with
  | case1 _ _ _ hf =>
    rintro ⟨⟩
    exact List.mem_of_find?_eq_some hf
  | case5 =>
    rintro ⟨⟩
    exact List.mem_singleton_self _
  | _ => nofun

theorem providerId_of_selectProvider {providers selected target}
    (h : selectProvider providers (some target) = .ok selected) :
    selected.providerId = target := by
  unfold selectProvider at h
  split at h
  · cases h
  · dsimp only at h
    split at h
    · rename_i hf
      cases h
      simpa using List.find?_some hf
    · cases h

theorem httpMethod_of_selectInteraction {actionSet candidates found requested}
    (h : selectInteraction actionSet candidates (some requested) = .ok found) :
    found.1.httpMethod = requested := by
  unfold selectInteraction at h
  dsimp only at h
  split at h
  · rename_i hf
    cases h
    simpa using List.find?_some hf
  · split at h <;> cases h

/-- What the second part takes from the provider that was selected, and from its surface. -/
theorem of_resolveInteraction {selected}
    (h : resolveInteraction inner selected surfaceId interactionId method = .ok resolved) :
    resolved.providerId = selected.providerId ∧
      resolved.interaction.interactionId = interactionId ∧
      ∀ requested, method = some requested → resolved.interaction.httpMethod = requested := by
  unfold resolveInteraction at h
  split at h
  · cases h
  · split at h
    · cases h
    · dsimp only at h
      cases hs : selectInteraction _ _ method with
      | error =>
        rw [hs] at h
        cases h
      | ok =>
        rw [hs] at h
        cases h
        refine ⟨rfl, ?_, ?_⟩
        · simpa using (List.mem_filter.1 (mem_of_selectInteraction hs)).2
        · rintro requested rfl
          exact httpMethod_of_selectInteraction hs

/-- The interaction is the one that was asked for. -/
theorem interactionId_of_resolve {config tenantId targetProviderId visibility}
    (h : resolveSurfaceActionForMethod config inner tenantId surfaceId interactionId method
      targetProviderId visibility = .ok resolved) :
    resolved.interaction.interactionId = interactionId := by
  unfold resolveSurfaceActionForMethod at h
  dsimp only at h
  split at h
  · cases h
  · split at h
    · cases h
    · exact (of_resolveInteraction h).2.1

/-- A provider and a method that the request names are taken. -/
theorem named_of_resolve {config tenantId targetProviderId visibility}
    (h : resolveSurfaceActionForMethod config inner tenantId surfaceId interactionId method
      targetProviderId visibility = .ok resolved) :
    (∀ target, targetProviderId = some target → resolved.providerId = target) ∧
      ∀ requested, method = some requested → resolved.interaction.httpMethod = requested := by
  unfold resolveSurfaceActionForMethod at h
  dsimp only at h
  split at h
  · cases h
  · rename_i selected hs
    split at h
    · cases h
    · obtain ⟨hp, -, hm⟩ := of_resolveInteraction h
      refine ⟨?_, hm⟩
      rintro target rfl
      rw [hp]
      exact providerId_of_selectProvider hs

end Uptrakit.Surfaces
