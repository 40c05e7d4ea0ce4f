import Uptrakit.Concurrent.Calls
import Uptrakit.Surfaces.InFlight

/-!
# The surface proxy

`SurfaceProxy::invoke` (`crates/ui/surface-proxy/src/proxy.rs`, `proxy/{dispatch,resolution}.rs`)
resolves the provider and the interaction, looks for a cached response, reserves the idempotency
key, executes the action (in the controller, or by a request to the provider) and caches the
response.  The model has one step for each critical section and each await.  The response of a
provider comes with `complete`, which ends the reservation before the call that waits for it has
cached it.  The failure that a call records for its provider is part of the step that ends it.

The registry changes by its own calls; connections, executors and providers are choices of the
environment.  A call whose client goes away is cancelled at an await.
-/

namespace Uptrakit.Surfaces

open Concurrent

structure ProxyConfig where
  registry : SurfaceRegistryConfig
  visibility : SurfaceProviderVisibility
  validateInput : InteractionDescriptor → SurfaceInvokeRequest → Except SurfaceProxyError Unit
  resolveTimeout : Option Nat → InteractionDescriptor → Except SurfaceProxyError Nat
  fingerprintRequest : String → Option (String × String) → Nat
  validateResult : InteractionDescriptor → Option String → Except SurfaceProxyError Unit

/-! ## Resolution -/

def InteractionHttpMethod.toText : InteractionHttpMethod → String
  | get => "get"
  | post => "post"
  | put => "put"
  | delete => "delete"
  | other text => text

def mapLookupError : SurfaceRegistryLookupError → SurfaceProxyError
  | .surfaceNotFound | .noTenantCompatibleProvider => .noProvider
  | .interactionNotFound => .interactionNotFound
  | .targetProviderRequired => .targetProviderRequired
  | .invalidProvider providerId =>
    .invalidProvider ("no surface provider '" ++ providerId ++
      "' is registered for the requested surface")
  | .methodNotAllowed allowed _ _ =>
    .schemaValidationFailed ("method not allowed for this interaction; allowed methods: [" ++
      String.intercalate ", " (allowed.map (·.toText)) ++ "]")

def callerOriginForRequest (registry : SurfaceRegistryInner) :
    SurfaceCallerOrigin → Except SurfaceProxyError CallerOrigin
  | .userSession userId sessionId => .ok (.userSession (toString userId) sessionId)
  | .builtInSystem principal => .ok (.builtInSystem principal)
  | .provider serviceId =>
    match registry.serviceToProvider serviceId with
    | some providerId => .ok (.provider providerId)
    | none =>
      .error (.invalidProvider ("service " ++ toString serviceId ++
        " has no registered surface provider"))

def ownProvider (registry : SurfaceRegistryInner) (callerOrigin : SurfaceCallerOrigin)
    (providers : List SurfaceProviderSummary) : Option String :=
  match callerOrigin with
  | .provider serviceId =>
    (registry.serviceToProvider serviceId).filter fun own =>
      providers.any (·.providerId == own)
  | _ => none

def selectAvailableProvider (available : Uuid → Bool) (providers : List SurfaceProviderSummary) :
    Except SurfaceProxyError (Option String) :=
  let candidates := providers.filter fun provider =>
    provider.tenantCompatible && provider.serviceId.all available
  if candidates.any (·.targeting == .targeted) then .error .targetProviderRequired
  else .ok (candidates.head?.map (·.providerId))

/-- `available` are the services that are connected and have not yielded. -/
def implicitTargetProvider (config : ProxyConfig) (registry : SurfaceRegistryInner)
    (available : Uuid → Bool) (request : SurfaceInvokeRequest) :
    Except SurfaceProxyError (Option String) :=
  if request.targetProviderId.isSome then .ok request.targetProviderId
  else
    let providers := listTargetedProvidersForSurface config.registry registry request.surfaceId
      request.tenantId config.visibility
    match ownProvider registry request.callerOrigin providers with
    | some own => .ok (some own)
    | none => selectAvailableProvider available providers

/-- A provider may not do what needs the permission of a user. -/
def permissionDenied (callerOrigin : CallerOrigin) (resolved : ResolvedSurfaceAction) : Bool :=
  match callerOrigin with
  | .provider _ =>
    (resolved.descriptorRequiredAction.isSome || resolved.interactionRequiredAction.isSome) &&
      !resolved.interaction.providerInvocable
  | _ => false

/-- The part of `invoke_inner` up to the lookup in the cache. -/
def resolveRequest (config : ProxyConfig) (registry : SurfaceRegistryInner)
    (request : SurfaceInvokeRequest) (timeoutOverride : Option Nat)
    (targetProviderId : Option String) : Except SurfaceProxyError Invocation :=
  match h : resolveSurfaceActionForMethod config.registry registry request.tenantId
      request.surfaceId request.interactionId request.method targetProviderId
      config.visibility with
  | .error error => .error (mapLookupError error)
  | .ok resolved => do
      let callerOrigin ← callerOriginForRequest registry request.callerOrigin
      config.validateInput resolved.interaction request
      let timeout ← config.resolveTimeout timeoutOverride resolved.interaction
      if permissionDenied callerOrigin resolved then
        throw (.permissionDenied "provider-initiated requests cannot satisfy user permission gates")
      return {
        request
        resolved
        callerOrigin
        requestFingerprint :=
          config.fingerprintRequest request.params request.encryptedSensitiveParams
        timeout
        interaction := interactionId_of_resolve h }

/-! ## Steps -/

structure Execution where
  requestId : Uuid
  call : Invocation

/-- The registry, the bookkeeping, the responses that are in the channels of the calls that wait,
and the clock.  The executions are kept for the statements; no step reads them. -/
structure ProxyState where
  registry : SurfaceRegistryInner
  state : PendingState
  delivered : Uuid → Option SurfaceActionResponse
  nextRequestId : Uuid
  clock : Nat
  executions : List Execution

def ProxyState.init (registry : SurfaceRegistryInner) (clock : Nat) : ProxyState where
  registry := registry
  state := .default
  delivered _ := none
  nextRequestId := 0
  clock := clock
  executions := []

inductive Operation
  | invoke (request : SurfaceInvokeRequest) (timeoutOverride : Option Nat)
  | complete (requestId : Uuid) (response : SurfaceActionResponse)
  | failInFlightForProvider (providerId : String)
  | registry (call : Call)

/-- What `invoke` returns once it has looked for a cached response. -/
inductive Answer
  | cached (cached : CachedIdempotent)
  | executed (response : SurfaceActionResponse)
  | error (error : SurfaceProxyError)
  | cancelled

inductive Frame
  | target (request : SurfaceInvokeRequest) (timeoutOverride : Option Nat)
  | resolve (request : SurfaceInvokeRequest) (timeoutOverride : Option Nat)
      (targetProviderId : Option String)
  | lookup (call : Invocation)
  | reserve (call : Invocation)
  | execute (call : Invocation) (requestId : Uuid)
  | send (call : Invocation) (requestId : Uuid)
  | wait (call : Invocation) (requestId : Uuid)
  | store (call : Invocation) (requestId : Uuid) (response : SurfaceActionResponse)
  | leave (call : Invocation) (requestId : Uuid) (answer : Answer)
  | rejected (request : SurfaceInvokeRequest) (error : SurfaceProxyError)
  | returned (call : Invocation) (answer : Answer)
  | complete (requestId : Uuid) (response : SurfaceActionResponse)
  | failInFlight (providerId : String)
  | registry (call : Call)
  | done

structure Choice where
  /-- The time that passes before the step. -/
  elapsed : Nat := 0
  /-- The services that are connected and have not yielded. -/
  available : Uuid → Bool := fun _ => true
  /-- The outcome of the local executor. -/
  executor : Except SurfaceProxyError String := .ok ""
  sent : Bool := true
  timedOut : Bool := false
  cancelled : Bool := false

def Operation.enter : Operation → Frame
  | invoke request timeoutOverride => .target request timeoutOverride
  | complete requestId response => .complete requestId response
  | failInFlightForProvider providerId => .failInFlight providerId
  | registry call => .registry call

section Steps

variable (config : ProxyConfig)

def unavailable (choice : Choice) (call : Invocation) : Option SurfaceProxyError :=
  match call.resolved.interaction.transport with
  | .controllerLocal =>
    if call.resolved.providerKind ≠ .plugin then
      some (.schemaValidationFailed
        "controller_local transport is only supported for plugin providers")
    else none
  | .providerProxied =>
    match call.resolved.serviceId with
    | none => some .noProvider
    | some serviceId => if choice.available serviceId then none else some .noProvider

def overloaded (state : PendingState) (call : Invocation) (now : Nat) :
    Option SurfaceProxyError :=
  match call.resolved.interaction.transport with
  | .controllerLocal => none
  | .providerProxied =>
    (state.ensureProviderNotRateLimited call.resolved.providerId now).or
      (state.ensureBudget call.resolved.providerId call.request.tenantId)

/-- The reservation; a local executor is called right after it. -/
def reserve (s : ProxyState) (state : PendingState) (call : Invocation) : ProxyState × Frame :=
  let requestId := s.nextRequestId
  let deadline := s.clock + call.timeout
  match call.resolved.interaction.transport with
  | .controllerLocal =>
    ({ s with
        state := state.reserveIdempotency call.key call.requestFingerprint requestId deadline
        nextRequestId := requestId + 1
        executions := s.executions ++ [⟨requestId, call⟩] },
      .execute call requestId)
  | .providerProxied =>
    ({ s with
        state := state.registerPending requestId call deadline
        nextRequestId := requestId + 1 },
      .send call requestId)

def reserveStep (choice : Choice) (s : ProxyState) (call : Invocation) : ProxyState × Frame :=
  match unavailable choice call with
  | some error => (s, .returned call (.error error))
  | none =>
    let state := s.state.cleanupExpired s.clock
    match (overloaded state call s.clock).or
        (state.ensureIdempotencyAvailable call.key call.requestFingerprint) with
    | some error => ({ s with state }, .returned call (.error error))
    | none => reserve s state call

/-- A request is given up; it counts as a failure of the provider if it was still pending. -/
def giveUp (s : ProxyState) (call : Invocation) (requestId : Uuid) : ProxyState :=
  let state := s.state.takePending requestId
  { s with
    state := if (s.state.pending.lookup requestId).isSome then
        state.recordProviderFailure call.resolved.providerId s.clock
      else state }

def validateResponse (call : Invocation) (response : SurfaceActionResponse) :
    Except SurfaceProxyError Unit :=
  if response.success then config.validateResult call.resolved.interaction response.result
  else .ok ()

/-- A response goes to the cache if it is valid. -/
def received (call : Invocation) (requestId : Uuid) (response : SurfaceActionResponse) : Frame :=
  match validateResponse config call response with
  | .error error => .leave call requestId (.error error)
  | .ok () => .store call requestId response

def executeStep (choice : Choice) (call : Invocation) (requestId : Uuid) : Frame :=
  if choice.cancelled then .leave call requestId .cancelled
  else
    match choice.executor with
    | .error error => .leave call requestId (.error error)
    | .ok result => received config call requestId ⟨requestId, true, some result, none⟩

def sendStep (choice : Choice) (s : ProxyState) (call : Invocation) (requestId : Uuid) :
    ProxyState × Frame :=
  if choice.cancelled then (s, .leave call requestId .cancelled)
  else if choice.sent then
    ({ s with executions := s.executions ++ [⟨requestId, call⟩] }, .wait call requestId)
  else (giveUp s call requestId, .leave call requestId (.error .sendFailed))

def waitStep (choice : Choice) (s : ProxyState) (call : Invocation) (requestId : Uuid) :
    ProxyState × Frame :=
  if choice.cancelled then (s, .leave call requestId .cancelled)
  else
    match s.delivered requestId with
    | some response => (s, received config call requestId response)
    | none =>
      if choice.timedOut then
        (giveUp s call requestId, .leave call requestId (.error .timeout))
      else if (s.state.pending.lookup requestId).isNone then
        -- The other end of the channel is gone.
        ({ s with
            state := s.state.recordProviderFailure call.resolved.providerId s.clock },
          .leave call requestId (.error .serviceDisconnected))
      else (s, .wait call requestId)

def dropGuard (state : PendingState) (call : Invocation) (requestId : Uuid) : PendingState :=
  match call.resolved.interaction.transport with
  | .controllerLocal => state.releaseIdempotency call.key requestId
  | .providerProxied => state.takePending requestId

def complete (s : ProxyState) (requestId : Uuid) (response : SurfaceActionResponse) :
    ProxyState :=
  if (s.state.pending.lookup requestId).isSome then
    { s with
      state := s.state.takePending requestId
      delivered := Function.update s.delivered requestId (some response) }
  else s

def perform (choice : Choice) (s : ProxyState) : Frame → ProxyState × Frame
  | .target request timeoutOverride =>
    match implicitTargetProvider config s.registry choice.available request with
    | .error error => (s, .rejected request error)
    | .ok targetProviderId => (s, .resolve request timeoutOverride targetProviderId)
  | .resolve request timeoutOverride targetProviderId =>
    match resolveRequest config s.registry request timeoutOverride targetProviderId with
    | .error error => (s, .rejected request error)
    | .ok call => (s, .lookup call)
  | .lookup call =>
    let state := s.state.cleanupExpired s.clock
    match state.cachedResponse call with
    | some cached => ({ s with state }, .returned call (.cached cached))
    | none => ({ s with state }, .reserve call)
  | .reserve call => reserveStep choice s call
  | .execute call requestId => (s, executeStep config choice call requestId)
  | .send call requestId => sendStep choice s call requestId
  | .wait call requestId => waitStep config choice s call requestId
  | .store call requestId response =>
    ({ s with
        state := (s.state.cleanupExpired s.clock).storeCachedResponse call response s.clock },
      .leave call requestId (.executed response))
  | .leave call requestId answer =>
    ({ s with state := dropGuard s.state call requestId }, .returned call answer)
  | .rejected request error => (s, .rejected request error)
  | .returned call answer => (s, .returned call answer)
  | .complete requestId response => (complete s requestId response, .done)
  | .failInFlight providerId =>
    ({ s with state := s.state.failInFlightForProvider providerId s.clock }, .done)
  | .registry call => ({ s with registry := (call.exec config.registry s.registry).2 }, .done)
  | .done => (s, .done)

def ProxyState.elapse (s : ProxyState) (elapsed : Nat) : ProxyState :=
  { s with clock := s.clock + elapsed }

def proxy : Calls Operation Choice ProxyState Frame where
  enter := Operation.enter
  step choice s f := perform config choice (s.elapse choice.elapsed) f

end Steps

/-! ## What a step does -/

def Frame.failed : Frame → Bool
  | .leave _ _ (.error _) | .leave _ _ .cancelled => true
  | _ => false

/-- A call that fails ends; otherwise its response goes to the cache. -/
def Frame.Ends (call : Invocation) (requestId : Uuid) (f : Frame) : Prop :=
  f.failed = true ∧ (∃ answer, f = .leave call requestId answer) ∨
    ∃ response, f = .store call requestId response

theorem ends_received (config call requestId response) :
    (received config call requestId response).Ends call requestId := by
  unfold received
  split
  · exact .inl ⟨rfl, _, rfl⟩
  · exact .inr ⟨response, rfl⟩

theorem ends_executeStep (config choice call requestId) :
    (executeStep config choice call requestId).Ends call requestId := by
  fun_cases executeStep config choice call requestId with
  | case1 | case2 => exact .inl ⟨rfl, _, rfl⟩
  | case3 => exact ends_received config call requestId _

/-- What a call that ends leaves of the bookkeeping: its request may be given up, and a failure
of the provider may be recorded. -/
def GivenUp (s : ProxyState) (call : Invocation) (requestId : Uuid) (state : PendingState) : Prop :=
  state = s.state ∨ state = (giveUp s call requestId).state ∨
    state = s.state.recordProviderFailure call.resolved.providerId s.clock

section Cases

variable {s : ProxyState} {call : Invocation} {requestId : Uuid} {key : IdempotencyKey}
  {state : PendingState}

variable (h : GivenUp s call requestId state)

include h

theorem GivenUp.cache : state.idempotencyCache = s.state.idempotencyCache := by
  rcases h with rfl | rfl | rfl
  · rfl
  · unfold giveUp
    split
    · exact PendingState.cache_takePending _ _
    · exact PendingState.cache_takePending _ _
  · rfl

theorem GivenUp.retains : s.state.Retains key state := by
  rcases h with rfl | rfl | rfl
  · exact .refl key _
  · have hr := s.state.retains_takePending key requestId
    unfold giveUp
    split
    · exact ⟨hr.cache, hr.pending⟩
    · exact hr
  · exact ⟨id, id⟩

theorem GivenUp.inFlight (ho : ∀ pending, s.state.pending.lookup requestId = some pending →
      pending.idempotencyKey ≠ key) :
    state.inFlightIdempotency key = s.state.inFlightIdempotency key := by
  rcases h with rfl | rfl | rfl
  · rfl
  · have ht := PendingState.inFlight_takePending_of_ne ho
    unfold giveUp
    split
    · exact ht
    · exact ht
  · rfl

end Cases

section Performs

variable (config : ProxyConfig) (choice : Choice) (s : ProxyState)

/-- Everything that a step can do. -/
inductive Performs : Frame → ProxyState → Frame → Prop
  | targets {request timeoutOverride target}
      (h : implicitTargetProvider config s.registry choice.available request = .ok target) :
      Performs (.target request timeoutOverride) s (.resolve request timeoutOverride target)
  | untargeted {request timeoutOverride error} :
      Performs (.target request timeoutOverride) s (.rejected request error)
  | resolves {request timeoutOverride target call}
      (h : resolveRequest config s.registry request timeoutOverride target = .ok call) :
      Performs (.resolve request timeoutOverride target) s (.lookup call)
  | unresolved {request timeoutOverride target error} :
      Performs (.resolve request timeoutOverride target) s (.rejected request error)
  | finds {call cached} (h : (s.state.cleanupExpired s.clock).cachedResponse call = some cached) :
      Performs (.lookup call) { s with state := s.state.cleanupExpired s.clock }
        (.returned call (.cached cached))
  | misses {call} :
      Performs (.lookup call) { s with state := s.state.cleanupExpired s.clock } (.reserve call)
  | unavailable {call error} (h : unavailable choice call = some error) :
      Performs (.reserve call) s (.returned call (.error error))
  | refused {call error}
      (h : (overloaded (s.state.cleanupExpired s.clock) call s.clock).or
        ((s.state.cleanupExpired s.clock).ensureIdempotencyAvailable call.key
          call.requestFingerprint) = some error) :
      Performs (.reserve call) { s with state := s.state.cleanupExpired s.clock }
        (.returned call (.error error))
  -- A local executor is called at once; a provider is sent the request later.
  | executes {call} (h : (s.state.cleanupExpired s.clock).ensureIdempotencyAvailable call.key
        call.requestFingerprint = none) :
      Performs (.reserve call)
        { s with
          state := (s.state.cleanupExpired s.clock).reserveIdempotency call.key
            call.requestFingerprint s.nextRequestId (s.clock + call.timeout)
          nextRequestId := s.nextRequestId + 1
          executions := s.executions ++ [⟨s.nextRequestId, call⟩] }
        (.execute call s.nextRequestId)
  | registers {call} (h : (s.state.cleanupExpired s.clock).ensureIdempotencyAvailable call.key
        call.requestFingerprint = none) :
      Performs (.reserve call)
        { s with
          state := (s.state.cleanupExpired s.clock).registerPending s.nextRequestId call
            (s.clock + call.timeout)
          nextRequestId := s.nextRequestId + 1 }
        (.send call s.nextRequestId)
  | executed {call requestId f'} (hends : f'.Ends call requestId) :
      Performs (.execute call requestId) s f'
  | unsent {call requestId state answer}
      (hfailed : (Frame.leave call requestId answer).failed = true)
      (hstate : GivenUp s call requestId state) :
      Performs (.send call requestId) { s with state } (.leave call requestId answer)
  | sent {call requestId} :
      Performs (.send call requestId)
        { s with executions := s.executions ++ [⟨requestId, call⟩] } (.wait call requestId)
  | received {call requestId state f'} (hends : f'.Ends call requestId)
      (hstate : GivenUp s call requestId state) :
      Performs (.wait call requestId) { s with state } f'
  | waits {call requestId} : Performs (.wait call requestId) s (.wait call requestId)
  | stores {call requestId response} :
      Performs (.store call requestId response)
        { s with
          state := (s.state.cleanupExpired s.clock).storeCachedResponse call response s.clock }
        (.leave call requestId (.executed response))
  | leaves {call requestId answer} :
      Performs (.leave call requestId answer)
        { s with state := dropGuard s.state call requestId } (.returned call answer)
  | rejected {request error} : Performs (.rejected request error) s (.rejected request error)
  | returned {call answer} : Performs (.returned call answer) s (.returned call answer)
  | completes {requestId response} :
      Performs (.complete requestId response) (complete s requestId response) .done
  | fails {providerId} :
      Performs (.failInFlight providerId)
        { s with state := s.state.failInFlightForProvider providerId s.clock } .done
  | registry {call : Call} :
      Performs (.registry call)
        { s with registry := (call.exec config.registry s.registry).2 } .done
  | done : Performs .done s .done

theorem performs_perform (f) : Performs config choice s f (perform config choice s f).1
    (perform config choice s f).2 := by
  cases f with
  | target =>
    simp only [perform]
    split
    · exact .untargeted
    · exact .targets ‹_›
  | resolve =>
    simp only [perform]
    split
    · exact .unresolved
    · exact .resolves ‹_›
  | lookup =>
    simp only [perform]
    split
    · exact .finds ‹_›
    · exact .misses
  | reserve call =>
    rw [perform]
    fun_cases reserveStep choice s call with
    | case1 => exact .unavailable ‹_›
    | case2 => exact .refused ‹_›
    | case3 _ _ hf =>
      have he := (Option.or_eq_none_iff.1 hf).2
      unfold reserve
      split
      · exact .executes he
      · exact .registers he
  | execute => exact .executed (ends_executeStep config choice _ _)
  | send call requestId =>
    rw [perform]
    fun_cases sendStep choice s call requestId with
    | case1 => exact .unsent rfl (.inl rfl)
    | case2 => exact .sent
    | case3 => exact .unsent rfl (.inr (.inl rfl))
  | wait call requestId =>
    rw [perform]
    fun_cases waitStep config choice s call requestId with
    | case1 => exact .received (.inl ⟨rfl, _, rfl⟩) (.inl rfl)
    | case2 => exact .received (ends_received config call requestId _) (.inl rfl)
    | case3 => exact .received (.inl ⟨rfl, _, rfl⟩) (.inr (.inl rfl))
    | case4 => exact .received (.inl ⟨rfl, _, rfl⟩) (.inr (.inr rfl))
    | case5 => exact .waits
  | _ => constructor

end Performs

end Uptrakit.Surfaces
