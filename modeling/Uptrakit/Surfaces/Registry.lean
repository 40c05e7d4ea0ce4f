import Mathlib.Algebra.GroupWithZero.Nat
import Mathlib.Data.List.AList
import Uptrakit.Access.Catalog
import Uptrakit.Data.SetIndex

/-!
# The surface registry

Providers (built-in ones, plugins and services) register surfaces with the controller
(`crates/ui/surface-proxy/src/registry.rs`).  The registry has three maps: the registrations by
provider id, the provider of each service, and the providers of each surface.

`register_service` removes the provider that the service had before, if it comes with a new
provider id, and puts it back when the new registration is refused.

The checks of a payload that look at nothing but the payload (`ContractChecks`) are parameters.
The order of the entries of the first map is the one in which the hash map is walked.
-/

namespace Uptrakit.Surfaces

open Access (Action)
open Data
open Text (startsWith)

abbrev Uuid := Nat

/-! ## Registrations -/

inductive ProviderKind
  | builtIn
  | plugin
  | service
  deriving DecidableEq

inductive Scope
  | global
  | tenant
  deriving DecidableEq

inductive Targeting
  | universal
  | targeted
  deriving DecidableEq

inductive InteractionKind
  | mutationAction
  | formSubmit
  | workflow
  | navigate
  | dataLoad
  | confirmableAction
  deriving DecidableEq

inductive InteractionTransport
  | controllerLocal
  | providerProxied
  deriving DecidableEq

inductive InteractionHttpMethod
  | get
  | post
  | put
  | delete
  | other (text : String)
  deriving DecidableEq

/-- The field `other` of a descriptor is the text of the fields that are only compared. -/
structure InteractionDescriptor where
  interactionId : String
  kind : InteractionKind
  httpMethod : InteractionHttpMethod
  requiredAction : Option String
  sensitiveFields : List String
  transport : InteractionTransport
  providerInvocable : Bool
  other : String
  deriving DecidableEq

structure SurfaceDescriptor where
  surfaceId : String
  scope : Scope
  targeting : Targeting
  requiredAction : Option String
  providerKind : ProviderKind
  other : String
  deriving DecidableEq

structure RegisteredSurface where
  descriptor : SurfaceDescriptor
  interactions : List InteractionDescriptor
  dataSources : List String
  deriving DecidableEq

structure ProviderIdentity where
  providerId : String
  providerKind : ProviderKind
  deriving DecidableEq

structure EffectiveTenantBinding where
  scope : Scope
  tenantId : Option String
  deriving DecidableEq

structure SurfaceRegistration where
  provider : ProviderIdentity
  effectiveTenantBinding : EffectiveTenantBinding
  surfaces : List RegisteredSurface
  encryptionMetadata : Option String
  deriving DecidableEq

def SurfaceRegistration.surfaceIds (registration : SurfaceRegistration) : List String :=
  registration.surfaces.map (·.descriptor.surfaceId)

def InteractionDescriptor.effectiveHttpMethod (interaction : InteractionDescriptor) :
    InteractionHttpMethod :=
  if interaction.kind = .dataLoad then .get else interaction.httpMethod

/-- Data loads are stored with the method they are dispatched with. -/
def normalizeInteractionMethods (registration : SurfaceRegistration) : SurfaceRegistration :=
  { registration with
    surfaces := registration.surfaces.map fun surface =>
      { surface with
        interactions := surface.interactions.map fun interaction =>
          { interaction with httpMethod := interaction.effectiveHttpMethod } } }

/-! ## Errors -/

inductive SurfaceProviderRejectionCode
  | unsupportedGeneration
  | missingCapability
  | invalidSlot
  | invalidTransport
  | schemaOrLimitFailure
  deriving DecidableEq

structure SurfaceProviderRejectionReason where
  code : SurfaceProviderRejectionCode
  message : String
  surfaceId : Option String
  deriving DecidableEq

structure SurfaceProviderRejection where
  providerId : String
  reasons : List SurfaceProviderRejectionReason
  deriving DecidableEq

inductive SurfaceRegistryError
  | providerRejected (rejection : SurfaceProviderRejection)
  | providerConflict (message : String)

/-! ## Checks of a payload -/

/-- The checks of the payload that the model leaves open: its length, the depth of the nodes and
their header actions, the data sources, and `validate_against`. -/
structure ContractChecks where
  payload : SurfaceRegistration → List SurfaceProviderRejectionReason
  rootNode : RegisteredSurface → List SurfaceProviderRejectionReason
  dataSources : ProviderKind → RegisteredSurface → List SurfaceProviderRejectionReason
  headerActions : RegisteredSurface → List SurfaceProviderRejectionReason
  validateAgainst : SurfaceRegistration → List SurfaceProviderRejectionReason

structure SurfaceRegistryConfig where
  maxSurfacesPerBatch : Nat
  maxInteractionsPerBatch : Nat
  checks : ContractChecks
  parseUuid : String → Option Uuid
  parseAction : String → Option Action

def ProviderKind.debug : ProviderKind → String
  | builtIn => "BuiltIn"
  | plugin => "Plugin"
  | service => "Service"

/-- Provider ids are separated by where the registration comes from. -/
def namespaceViolation (sourceKind : ProviderKind) (providerId : String) : Option String :=
  match sourceKind with
  | .service =>
    if startsWith providerId "service." then none
    else some "service surface registrations must use a `service.`-prefixed provider id"
  | .builtIn =>
    if startsWith providerId "builtin." then none
    else some "built-in surface registrations must use a `builtin.`-prefixed provider id"
  | .plugin =>
    if startsWith providerId "service." || startsWith providerId "builtin." then
      some "plugin surface registrations must not use a reserved provider-id namespace"
    else none

section Checks

variable (config : SurfaceRegistryConfig)

def tenantReasons (binding : EffectiveTenantBinding) (serviceTenantId : Option Uuid) :
    List SurfaceProviderRejectionReason :=
  let reason : String → SurfaceProviderRejectionReason := (⟨.invalidTransport, ·, none⟩)
  match serviceTenantId with
  | some expectedTenantId =>
    (if binding.scope ≠ .tenant then
      [reason "service surface registrations must be tenant-scoped"] else []) ++
    (if binding.tenantId.bind config.parseUuid ≠ some expectedTenantId then
      [reason ("service surface registration tenant binding does not match " ++
        "authenticated service tenant")] else [])
  | none =>
    if binding.scope ≠ .global ∨ binding.tenantId.isSome then
      [reason ("system service surface registrations must be global-scoped with no " ++
        "tenant binding")]
    else []

/-- The reasons against a required action: `what` is the descriptor or the interaction. -/
def actionReasons (what : String) (surfaceId : String) (requiredAction : Option String) :
    List SurfaceProviderRejectionReason :=
  match requiredAction with
  | none => []
  | some value =>
    if (config.parseAction value).isSome then []
    else [⟨.schemaOrLimitFailure, "invalid " ++ what ++ " required_action `" ++ value ++ "`",
      some surfaceId⟩]

variable (sourceKind : ProviderKind)

def interactionReasons (encrypted : Bool) (surfaceId : String)
    (interaction : InteractionDescriptor) : List SurfaceProviderRejectionReason :=
  actionReasons config "interaction" surfaceId interaction.requiredAction ++
  (if interaction.transport = .controllerLocal ∧ sourceKind ≠ .plugin then
    [⟨.invalidTransport, "controller_local is currently supported only for plugin providers",
      some surfaceId⟩] else []) ++
  (if interaction.sensitiveFields ≠ [] ∧ interaction.transport = .providerProxied ∧
      encrypted = false ∧ sourceKind ≠ .builtIn then
    [⟨.schemaOrLimitFailure, "sensitive fields require provider encryption metadata",
      some surfaceId⟩] else [])

def surfaceReasons (encrypted : Bool) (surface : RegisteredSurface) :
    List SurfaceProviderRejectionReason :=
  let surfaceId := surface.descriptor.surfaceId
  config.checks.rootNode surface ++
  (if surface.descriptor.targeting = .targeted ∧ surface.descriptor.scope ≠ .tenant then
    [⟨.schemaOrLimitFailure, "targeted surfaces must be tenant-scoped", some surfaceId⟩] else []) ++
  actionReasons config "descriptor" surfaceId surface.descriptor.requiredAction ++
  surface.interactions.flatMap (interactionReasons config sourceKind encrypted surfaceId) ++
  config.checks.dataSources sourceKind surface ++ config.checks.headerActions surface

def limitReasons (what : String) (count max : Nat) : List SurfaceProviderRejectionReason :=
  if count > max then
    [⟨.schemaOrLimitFailure,
      "registration contains " ++ toString count ++ " " ++ what ++ ", max " ++ toString max, none⟩]
  else []

def rejectUnless (providerId : String) (reasons : List SurfaceProviderRejectionReason) :
    Except SurfaceRegistryError Unit :=
  if reasons = [] then .ok () else .error (.providerRejected ⟨providerId, reasons⟩)

def validateRegistrationBasics (registration : SurfaceRegistration)
    (serviceTenantId : Option Uuid) : Except SurfaceRegistryError Unit :=
  let provider := registration.provider
  rejectUnless provider.providerId
    ((if provider.providerKind ≠ sourceKind then
      [⟨.invalidTransport, "provider_kind " ++ provider.providerKind.debug ++
        " is not allowed for this registration source", none⟩] else []) ++
    ((namespaceViolation sourceKind provider.providerId).toList.map
      (⟨.invalidTransport, ·, none⟩)) ++
    (if sourceKind = .service then
      tenantReasons config registration.effectiveTenantBinding serviceTenantId else []) ++
    config.checks.payload registration ++
    limitReasons "surfaces" registration.surfaces.length config.maxSurfacesPerBatch ++
    limitReasons "interactions" (registration.surfaces.map (·.interactions.length)).sum
      config.maxInteractionsPerBatch ++
    registration.surfaces.flatMap
      (surfaceReasons config sourceKind registration.encryptionMetadata.isSome) ++
    config.checks.validateAgainst registration)

/-! ## Parsed actions -/

structure SurfaceActionSet where
  descriptor : Option Action
  interactions : List (Option Action)
  deriving DecidableEq

def parseSurfaceActions (registration : SurfaceRegistration) :
    Except SurfaceRegistryError (List SurfaceActionSet) :=
  let reasons := registration.surfaces.flatMap fun surface =>
    actionReasons config "descriptor" surface.descriptor.surfaceId
        surface.descriptor.requiredAction ++
      surface.interactions.flatMap fun interaction =>
        actionReasons config "interaction" surface.descriptor.surfaceId interaction.requiredAction
  if reasons = [] then
    .ok (registration.surfaces.map fun surface =>
      { descriptor := surface.descriptor.requiredAction.bind config.parseAction
        interactions := surface.interactions.map (·.requiredAction.bind config.parseAction) })
  else .error (.providerRejected ⟨registration.provider.providerId, reasons⟩)

end Checks

/-! ## The maps -/

structure ProviderRegistration where
  registration : SurfaceRegistration
  serviceId : Option Uuid
  serviceAppName : Option String
  surfaceActions : List SurfaceActionSet
  deriving DecidableEq

def ProviderRegistration.binding (entry : ProviderRegistration) : EffectiveTenantBinding :=
  entry.registration.effectiveTenantBinding

/-- A `HashMap` from provider ids. -/
abbrev Providers := AList fun _ : String => ProviderRegistration

structure SurfaceRegistryInner where
  providers : Providers
  serviceToProvider : Uuid → Option String
  surfaceToProviders : SetIndex String String

def SurfaceRegistryInner.default : SurfaceRegistryInner where
  providers := ∅
  serviceToProvider _ := none
  surfaceToProviders := .empty

variable (inner : SurfaceRegistryInner)

def upsertProvider (providerId : String) (entry : ProviderRegistration) : SurfaceRegistryInner :=
  { inner with
    surfaceToProviders := entry.registration.surfaceIds.foldl
      (fun index surfaceId => index.insertAt surfaceId providerId)
      (inner.surfaceToProviders.without providerId)
    providers := inner.providers.insert providerId entry }

def removeProvider (providerId : String) : SurfaceRegistryInner where
  surfaceToProviders := inner.surfaceToProviders.without providerId
  providers := inner.providers.erase providerId
  serviceToProvider :=
    match (inner.providers.lookup providerId).bind (·.serviceId) with
    | some serviceId => Function.update inner.serviceToProvider serviceId none
    | none => inner.serviceToProvider

/-! ## Collisions -/

inductive EffectiveScopeKey
  | global
  | tenant (tenantId : Uuid)
  deriving DecidableEq

section Admission

variable (config : SurfaceRegistryConfig)

def effectiveScopeKey (binding : EffectiveTenantBinding) : Option EffectiveScopeKey :=
  match binding.scope with
  | .global => some .global
  | .tenant => (binding.tenantId.bind config.parseUuid).map .tenant

/-- The two surfaces cannot both be registered in one effective scope. -/
def surfaceCollision (incomingKind : ProviderKind) (incoming : RegisteredSurface)
    (existingProviderId : String) (existingKind : ProviderKind) (existing : RegisteredSurface) :
    Option SurfaceRegistryError :=
  if existing.descriptor.surfaceId ≠ incoming.descriptor.surfaceId then none
  else if existingKind = .builtIn ∧ incomingKind ≠ .builtIn then
    some (.providerConflict ("surface `" ++ incoming.descriptor.surfaceId ++
      "` is already owned by built-in provider `" ++ existingProviderId ++ "`"))
  else if incoming.descriptor.targeting = .universal ∨
      existing.descriptor.targeting = .universal then
    some (.providerConflict ("surface `" ++ incoming.descriptor.surfaceId ++
      "` with universal targeting is already registered in the same effective scope"))
  else if incoming ≠ existing then
    some (.providerConflict ("targeted surface `" ++ incoming.descriptor.surfaceId ++
      "` contract mismatch across providers in the same effective scope"))
  else none

def providerCollision (incoming : SurfaceRegistration) (key : EffectiveScopeKey)
    (surface : RegisteredSurface) (existingProviderId : String)
    (existing : ProviderRegistration) : Option SurfaceRegistryError :=
  if existingProviderId = incoming.provider.providerId then none
  else if effectiveScopeKey config existing.binding ≠ some key then none
  else existing.registration.surfaces.findSome? (surfaceCollision incoming.provider.providerKind
    surface existingProviderId existing.registration.provider.providerKind)

variable (inner : SurfaceRegistryInner)

def validateContractCollisions (incoming : SurfaceRegistration) :
    Except SurfaceRegistryError Unit :=
  match effectiveScopeKey config incoming.effectiveTenantBinding with
  | none => .error (.providerConflict "invalid effective tenant binding for registration")
  | some key =>
    match incoming.surfaces.findSome? fun surface => inner.providers.entries.findSome?
        fun entry => providerCollision config incoming key surface entry.1 entry.2 with
    | some error => .error error
    | none => .ok ()

/-- `{:?}` of an optional text. -/
def debugText : Option String → String
  | none => "None"
  | some text => "Some(" ++ text.quote ++ ")"

def bindingConflict (providerId : String) (serviceId : Uuid) (serviceAppName : Option String) :
    Option String :=
  match inner.providers.lookup providerId with
  | none => none
  | some existing =>
    match existing.serviceId.filter (· ≠ serviceId) with
    | some existingServiceId =>
      some ("provider `" ++ providerId ++ "` is already bound to service " ++
        toString existingServiceId)
    | none =>
      if existing.serviceAppName ≠ serviceAppName then
        some ("provider `" ++ providerId ++ "` app name conflict: existing=" ++
          debugText existing.serviceAppName ++ ", incoming=" ++ debugText serviceAppName)
      else none

def validateRegistrationAdmission (registration : SurfaceRegistration) (serviceId : Option Uuid)
    (serviceAppName : Option String) : Except SurfaceRegistryError Unit :=
  let providerId := registration.provider.providerId
  match serviceId.bind (bindingConflict inner providerId · serviceAppName) with
  | some message => .error (.providerConflict message)
  | none => validateContractCollisions config inner registration

/-! ## Operations -/

/-- The provider that the service had under another id, with its registration. -/
def rotationBackup (serviceId : Uuid) (providerId : String) :
    Option (String × ProviderRegistration) :=
  ((inner.serviceToProvider serviceId).filter (· ≠ providerId)).bind fun existingProviderId =>
    (inner.providers.lookup existingProviderId).map (existingProviderId, ·)

def rotate (backup : Option (String × ProviderRegistration)) : SurfaceRegistryInner :=
  match backup with
  | none => inner
  | some (existingProviderId, _) => removeProvider inner existingProviderId

def restore (serviceId : Uuid) (backup : Option (String × ProviderRegistration)) :
    SurfaceRegistryInner :=
  match backup with
  | none => inner
  | some (existingProviderId, entry) =>
    let inner := upsertProvider inner existingProviderId entry
    { inner with
      serviceToProvider :=
        Function.update inner.serviceToProvider serviceId (some existingProviderId) }

def registerService (serviceId : Uuid) (serviceAppName : String) (serviceTenantId : Option Uuid)
    (registration : SurfaceRegistration) (inner : SurfaceRegistryInner) :
    Except SurfaceRegistryError Unit × SurfaceRegistryInner :=
  match validateRegistrationBasics config .service registration serviceTenantId with
  | .error error => (.error error, inner)
  | .ok () =>
    let providerId := registration.provider.providerId
    let backup := rotationBackup inner serviceId providerId
    let inner := rotate inner backup
    let registration := normalizeInteractionMethods registration
    match validateRegistrationAdmission config inner registration (some serviceId)
        (some serviceAppName) with
    | .error error => (.error error, restore inner serviceId backup)
    | .ok () =>
      match parseSurfaceActions config registration with
      | .error error => (.error error, restore inner serviceId backup)
      | .ok surfaceActions =>
        if (inner.providers.lookup providerId).any (·.serviceId != some serviceId) then
          (.error (.providerConflict ("provider `" ++ providerId ++
            "` is already registered by a different service")), inner)
        else
          let inner := { inner with
            serviceToProvider :=
              Function.update inner.serviceToProvider serviceId (some providerId) }
          (.ok (), upsertProvider inner providerId
            { registration
              serviceId := some serviceId
              serviceAppName := some serviceAppName
              surfaceActions })

/-- `label` is the text for what is registered under the id with another kind. -/
def bootstrap (kind : ProviderKind) (label : String) (registration : SurfaceRegistration)
    (inner : SurfaceRegistryInner) : Except SurfaceRegistryError Unit × SurfaceRegistryInner :=
  match validateRegistrationBasics config kind registration none with
  | .error error => (.error error, inner)
  | .ok () =>
    let providerId := registration.provider.providerId
    let registration := normalizeInteractionMethods registration
    match validateRegistrationAdmission config inner registration none none with
    | .error error => (.error error, inner)
    | .ok () =>
      match parseSurfaceActions config registration with
      | .error error => (.error error, inner)
      | .ok surfaceActions =>
        if (inner.providers.lookup providerId).any
            (·.registration.provider.providerKind != kind) then
          (.error (.providerConflict ("provider `" ++ providerId ++
            "` is already registered as " ++ label)), inner)
        else
          (.ok (), upsertProvider inner providerId
            { registration, serviceId := none, serviceAppName := none, surfaceActions })

def bootstrapBuiltin := bootstrap config .builtIn "non-built-in"

def bootstrapPlugin := bootstrap config .plugin "non-plugin"

end Admission

def unregisterService (serviceId : Uuid) (inner : SurfaceRegistryInner) : SurfaceRegistryInner :=
  let providerId := inner.serviceToProvider serviceId
  let inner := { inner with
    serviceToProvider := Function.update inner.serviceToProvider serviceId none }
  match providerId with
  | none => inner
  | some providerId => removeProvider inner providerId

/-! ## Calls -/

inductive Call
  | bootstrapBuiltin (registration : SurfaceRegistration)
  | bootstrapPlugin (registration : SurfaceRegistration)
  | registerService (serviceId : Uuid) (serviceAppName : String) (serviceTenantId : Option Uuid)
      (registration : SurfaceRegistration)
  | unregisterService (serviceId : Uuid)

variable (config : SurfaceRegistryConfig)

/-- The result of a call, and what it leaves.  Every call holds the lock to its end. -/
def Call.exec (inner : SurfaceRegistryInner) :
    Call → Except SurfaceRegistryError Unit × SurfaceRegistryInner
  | bootstrapBuiltin registration => Surfaces.bootstrapBuiltin config registration inner
  | bootstrapPlugin registration => Surfaces.bootstrapPlugin config registration inner
  | registerService serviceId serviceAppName serviceTenantId registration =>
    Surfaces.registerService config serviceId serviceAppName serviceTenantId registration inner
  | unregisterService serviceId => (.ok (), Surfaces.unregisterService serviceId inner)

/-- A call is made, or the hash map of the providers is walked in another order from now on. -/
inductive Event
  | call (call : Call)
  | rehash (order : List (Sigma fun _ : String => ProviderRegistration))

def rehash (order : List (Sigma fun _ : String => ProviderRegistration)) : SurfaceRegistryInner :=
  if h : order.Perm inner.providers.entries then
    { inner with providers := ⟨order, (List.perm_nodupKeys h).2 inner.providers.nodupKeys⟩ }
  else inner

def Event.apply (inner : SurfaceRegistryInner) : Event → SurfaceRegistryInner
  | call c => (c.exec config inner).2
  | rehash order => Surfaces.rehash inner order

def registryAfter (events : List Event) : SurfaceRegistryInner :=
  events.foldl (Event.apply config) .default

end Uptrakit.Surfaces
