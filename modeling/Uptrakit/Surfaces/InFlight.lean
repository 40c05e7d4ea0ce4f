import Uptrakit.Surfaces.Resolution

/-!
# Requests in flight

The bookkeeping of `SurfaceProxy` (`crates/ui/surface-proxy/src/proxy/bookkeeping.rs`): requests
that wait for a provider, the budgets, the idempotency keys that are reserved and the responses
that are cached for them.  All of it is behind one mutex, and every definition here is one critical
section or a part of one.

The lemmas say what becomes of the entries of one idempotency key.
-/

namespace Uptrakit.Surfaces

open Option List Function

/-! ## Invocations -/

inductive SurfaceProxyError
  | noProvider
  | targetProviderRequired
  | invalidProvider (text : String)
  | interactionNotFound
  | permissionDenied (message : String)
  | conflict (message code : String)
  | schemaValidationFailed (message : String)
  | sensitiveFieldRejected (message : String)
  | duplicateRequest
  | rateLimited
  | serviceDisconnected
  | sendFailed
  | timeout

inductive SurfaceCallerOrigin
  | userSession (userId : Uuid) (sessionId : String)
  | builtInSystem (principal : String)
  | provider (serviceId : Uuid)
  deriving DecidableEq

inductive CallerOrigin
  | userSession (userId sessionId : String)
  | builtInSystem (principal : String)
  | provider (providerId : String)
  deriving DecidableEq

/-- The parameters are JSON texts; of the encrypted ones there are the key id and the
ciphertext. -/
structure SurfaceInvokeRequest where
  tenantId : Uuid
  surfaceId : String
  interactionId : String
  method : Option InteractionHttpMethod
  idempotencyKey : String
  targetProviderId : Option String
  callerOrigin : SurfaceCallerOrigin
  params : String
  encryptedSensitiveParams : Option (String × String)
  deriving DecidableEq

structure SurfaceActionResponse where
  requestId : Uuid
  success : Bool
  result : Option String
  error : Option String

structure IdempotencyKey where
  tenantId : Uuid
  surfaceId : String
  interactionId : String
  callerKey : String
  idempotencyKey : String
  deriving DecidableEq

def CallerOrigin.key : CallerOrigin → String
  | userSession userId sessionId => "user:" ++ userId ++ ":" ++ sessionId
  | builtInSystem principal => "system:" ++ principal
  | provider providerId => "provider:" ++ providerId

def buildIdempotencyKey (request : SurfaceInvokeRequest) (callerOrigin : CallerOrigin) :
    IdempotencyKey where
  tenantId := request.tenantId
  surfaceId := request.surfaceId
  interactionId := request.interactionId
  callerKey := callerOrigin.key
  idempotencyKey := request.idempotencyKey

/-- A request that is resolved and valid.  The interaction is the one of the request. -/
structure Invocation where
  request : SurfaceInvokeRequest
  resolved : ResolvedSurfaceAction
  callerOrigin : CallerOrigin
  requestFingerprint : Nat
  timeout : Nat
  interaction : resolved.interaction.interactionId = request.interactionId

def Invocation.key (call : Invocation) : IdempotencyKey :=
  buildIdempotencyKey call.request call.callerOrigin

/-! ## State -/

structure PendingRequest where
  providerId : String
  tenantId : Uuid
  idempotencyKey : IdempotencyKey
  deadline : Nat

structure IdempotencyInFlight where
  requestFingerprint : Nat
  owner : Uuid
  deadline : Nat

/-- The invocation that has stored the response is kept for the statements; nothing reads it. -/
structure CachedIdempotent where
  requestFingerprint : Nat
  response : SurfaceActionResponse
  storedAt : Nat
  origin : Invocation

structure ProviderFailureState where
  failures : List Nat := []
  blockedUntil : Option Nat := none

/-- Times are in seconds.  A counter that is not in its map is zero. -/
structure PendingState where
  pending : AList fun _ : Uuid => PendingRequest
  inFlightPerProvider : String → Nat
  inFlightPerTenant : Uuid → Nat
  inFlightIdempotency : IdempotencyKey → Option IdempotencyInFlight
  idempotencyCache : IdempotencyKey → Option CachedIdempotent
  providerFailures : String → ProviderFailureState

def maxInFlightPerProvider : Nat := 32

def maxInFlightPerTenant : Nat := 128

def idempotencyRetention : Nat := 20 * 60

def failureWindow : Nat := 60

def failureLimit : Nat := 5

def failureCooldown : Nat := 60

def inFlightSweepMargin : Nat := 60

def recentFailures (now : Nat) (failures : List Nat) : List Nat :=
  failures.dropWhile fun oldest => decide (failureWindow < now - oldest)

namespace PendingState

def default : PendingState where
  pending := ∅
  inFlightPerProvider _ := 0
  inFlightPerTenant _ := 0
  inFlightIdempotency _ := none
  idempotencyCache _ := none
  providerFailures _ := {}

def reserveIdempotency (state : PendingState) (key : IdempotencyKey) (requestFingerprint : Nat)
    (owner : Uuid) (deadline : Nat) : PendingState :=
  { state with
    inFlightIdempotency := Function.update state.inFlightIdempotency key
      (some ⟨requestFingerprint, owner, deadline⟩) }

def registerPending (state : PendingState) (requestId : Uuid) (call : Invocation)
    (deadline : Nat) : PendingState :=
  let provider := call.resolved.providerId
  let tenant := call.request.tenantId
  { state with
    pending := state.pending.insert requestId ⟨provider, tenant, call.key, deadline⟩
    inFlightPerProvider := Function.update state.inFlightPerProvider provider
      (state.inFlightPerProvider provider + 1)
    inFlightPerTenant := Function.update state.inFlightPerTenant tenant
      (state.inFlightPerTenant tenant + 1)
    }.reserveIdempotency call.key call.requestFingerprint requestId deadline

/-- A reservation is released by its owner only. -/
def releaseIdempotency (state : PendingState) (key : IdempotencyKey) (owner : Uuid) :
    PendingState :=
  if (state.inFlightIdempotency key).any (·.owner == owner) then
    { state with inFlightIdempotency := Function.update state.inFlightIdempotency key none }
  else state

def takePending (state : PendingState) (requestId : Uuid) : PendingState :=
  match state.pending.lookup requestId with
  | none => state
  | some pending =>
    { state with
      pending := state.pending.erase requestId
      inFlightPerProvider := Function.update state.inFlightPerProvider pending.providerId
        (state.inFlightPerProvider pending.providerId - 1)
      inFlightPerTenant := Function.update state.inFlightPerTenant pending.tenantId
        (state.inFlightPerTenant pending.tenantId - 1)
      }.releaseIdempotency pending.idempotencyKey requestId

def ensureBudget (state : PendingState) (providerId : String) (tenantId : Uuid) :
    Option SurfaceProxyError :=
  if state.inFlightPerProvider providerId ≥ maxInFlightPerProvider then some .rateLimited
  else if state.inFlightPerTenant tenantId ≥ maxInFlightPerTenant then some .rateLimited
  else none

def ensureIdempotencyAvailable (state : PendingState) (key : IdempotencyKey)
    (requestFingerprint : Nat) : Option SurfaceProxyError :=
  if (state.inFlightIdempotency key).isSome then some .duplicateRequest
  else if (state.idempotencyCache key).any (·.requestFingerprint != requestFingerprint) then
    some .duplicateRequest
  else none

def ensureProviderNotRateLimited (state : PendingState) (providerId : String) (now : Nat) :
    Option SurfaceProxyError :=
  if (state.providerFailures providerId).blockedUntil.any fun blockedUntil =>
      decide (now < blockedUntil) then
    some .rateLimited
  else none

def recordProviderFailure (state : PendingState) (providerId : String) (now : Nat) :
    PendingState :=
  let tracker := state.providerFailures providerId
  let failures := recentFailures now (tracker.failures ++ [now])
  let tracker : ProviderFailureState :=
    if failures.length ≥ failureLimit then ⟨[], some (now + failureCooldown)⟩
    else ⟨failures, tracker.blockedUntil⟩
  { state with providerFailures := Function.update state.providerFailures providerId tracker }

def pendingIds (state : PendingState) (p : PendingRequest → Bool) : List Uuid :=
  (state.pending.entries.filter (p ·.2)).map (·.1)

def cleanupExpired (state : PendingState) (now : Nat) : PendingState :=
  let state := { state with
    idempotencyCache := fun key =>
      (state.idempotencyCache key).filter fun cached =>
        decide (now - cached.storedAt ≤ idempotencyRetention)
    providerFailures := fun provider =>
      let tracker := state.providerFailures provider
      ⟨recentFailures now tracker.failures,
        tracker.blockedUntil.filter fun blockedUntil => decide (now < blockedUntil)⟩ }
  let reapIds := state.pendingIds fun pending =>
    decide (pending.deadline + inFlightSweepMargin < now)
  let state := reapIds.foldl takePending state
  { state with
    inFlightIdempotency := fun key =>
      (state.inFlightIdempotency key).filter fun inFlight =>
        decide (now ≤ inFlight.deadline + inFlightSweepMargin) }

/-- The section of `try_get_cached_response`, after the cleanup. -/
def cachedResponse (state : PendingState) (call : Invocation) : Option CachedIdempotent :=
  (state.idempotencyCache call.key).filter (·.requestFingerprint == call.requestFingerprint)

/-- The section of `store_cached_response`, after the cleanup. -/
def storeCachedResponse (state : PendingState) (call : Invocation)
    (response : SurfaceActionResponse) (now : Nat) : PendingState :=
  { state with
    idempotencyCache := Function.update state.idempotencyCache call.key
      (some ⟨call.requestFingerprint, response, now, call⟩) }

def failInFlightForProvider (state : PendingState) (providerId : String) (now : Nat) :
    PendingState :=
  let requestIds := state.pendingIds (·.providerId == providerId)
  let state := requestIds.foldl takePending state
  if requestIds = [] then state else state.recordProviderFailure providerId now

/-! ## What becomes of a key -/

variable {state : PendingState} {key : IdempotencyKey} {requestId : Uuid} {now : Nat}

theorem pending_releaseIdempotency (state : PendingState) (key : IdempotencyKey) (owner : Uuid) :
    (state.releaseIdempotency key owner).pending = state.pending := by
  unfold releaseIdempotency
  split <;> rfl

theorem cache_releaseIdempotency (state : PendingState) (key : IdempotencyKey) (owner : Uuid) :
    (state.releaseIdempotency key owner).idempotencyCache = state.idempotencyCache := by
  unfold releaseIdempotency
  split <;> rfl

theorem inFlight_releaseIdempotency_of_ne {other} (h : other ≠ key) (owner) :
    (state.releaseIdempotency key owner).inFlightIdempotency other =
      state.inFlightIdempotency other := by
  unfold releaseIdempotency
  split
  · exact update_of_ne h _ _
  · rfl

variable {inFlight : IdempotencyInFlight} {requestFingerprint : Nat}

theorem cache_takePending (state : PendingState) (requestId : Uuid) :
    (state.takePending requestId).idempotencyCache = state.idempotencyCache := by
  unfold takePending
  split
  · rfl
  · exact cache_releaseIdempotency _ _ _

theorem inFlight_takePending_of_ne
    (h : ∀ pending, state.pending.lookup requestId = some pending → pending.idempotencyKey ≠ key) :
    (state.takePending requestId).inFlightIdempotency key = state.inFlightIdempotency key := by
  unfold takePending
  split
  · rfl
  · next pending hp =>
      exact inFlight_releaseIdempotency_of_ne (h pending hp).symm _

/-- A cached response of the key stays, and no pending request is new. -/
structure Retains (key : IdempotencyKey) (before after : PendingState) : Prop where
  cache : (before.idempotencyCache key).isSome = true → (after.idempotencyCache key).isSome = true
  pending : ∀ {id p}, after.pending.lookup id = some p → before.pending.lookup id = some p

theorem Retains.refl (key state) : Retains key state state :=
  ⟨id, id⟩

theorem Retains.trans {a b c} (hab : Retains key a b) (hbc : Retains key b c) : Retains key a c :=
  ⟨fun h => hbc.cache (hab.cache h), fun h => hab.pending (hbc.pending h)⟩

theorem retains_releaseIdempotency (state key released owner) :
    Retains key state (state.releaseIdempotency released owner) := by
  constructor
  · rw [cache_releaseIdempotency]
    exact id
  · intro id p h
    rwa [pending_releaseIdempotency] at h

theorem retains_takePending (state key requestId) :
    Retains key state (state.takePending requestId) := by
  constructor
  · rw [cache_takePending]
    exact id
  · intro id p h
    unfold takePending at h
    split at h
    · exact h
    · rw [pending_releaseIdempotency] at h
      by_cases hid : id = requestId
      · rw [hid, AList.lookup_erase] at h
        cases h
      · rwa [AList.lookup_erase_ne hid] at h

theorem retains_foldl_takePending (ids : List Uuid) (state : PendingState)
    (key : IdempotencyKey) : Retains key state (ids.foldl takePending state) := by
  induction ids generalizing state with
  | nil => exact .refl key state
  | cons id _ ih => exact (retains_takePending state key id).trans (ih _)

theorem cache_foldl_takePending (ids : List Uuid) (state : PendingState) :
    (ids.foldl takePending state).idempotencyCache = state.idempotencyCache := by
  induction ids generalizing state with
  | nil => rfl
  | cons _ _ ih => rw [foldl_cons, ih, cache_takePending]

/-- Requests of other keys. -/
theorem inFlight_foldl_takePending_of_ne {ids : List Uuid}
    (h : ∀ id ∈ ids, ∀ pending, state.pending.lookup id = some pending →
      pending.idempotencyKey ≠ key) :
    (ids.foldl takePending state).inFlightIdempotency key = state.inFlightIdempotency key := by
  induction ids generalizing state with
  | nil => rfl
  | cons id _ ih =>
    rw [foldl_cons, ih]
    · exact inFlight_takePending_of_ne (h id mem_cons_self)
    · intro id' hid' pending hp
      exact h id' (mem_cons_of_mem _ hid') pending ((retains_takePending state key id).pending hp)

/-- A request with a selected id is one that the predicate holds of. -/
theorem of_mem_pendingIds {p : PendingRequest → Bool} (h : requestId ∈ state.pendingIds p) {pending}
    (hpe : state.pending.lookup requestId = some pending) : p pending = true := by
  obtain ⟨⟨id, entry⟩, he, rfl⟩ := mem_map.1 h
  obtain ⟨hm, hp⟩ := mem_filter.1 he
  have hl : state.pending.lookup id = some entry := AList.mem_lookup_iff.2 hm
  rw [hl] at hpe
  cases hpe
  exact hp

theorem cache_cleanupExpired (state : PendingState) (now : Nat) (key : IdempotencyKey) :
    (state.cleanupExpired now).idempotencyCache key =
      (state.idempotencyCache key).filter fun cached =>
        decide (now - cached.storedAt ≤ idempotencyRetention) := by
  unfold cleanupExpired
  rw [cache_foldl_takePending]

theorem of_cache_cleanupExpired {cached}
    (h : (state.cleanupExpired now).idempotencyCache key = some cached) :
    state.idempotencyCache key = some cached := by
  rw [cache_cleanupExpired, filter_eq_some_iff] at h
  exact h.1

/-- Nothing of the key has expired. -/
def freshFor (state : PendingState) (key : IdempotencyKey) (now : Nat) : Bool :=
  (state.idempotencyCache key).all (fun cached =>
      decide (now - cached.storedAt ≤ idempotencyRetention)) &&
    (state.inFlightIdempotency key).all (fun inFlight =>
      decide (now ≤ inFlight.deadline + inFlightSweepMargin)) &&
    state.pending.entries.all fun entry => entry.2.idempotencyKey != key ||
      decide (now ≤ entry.2.deadline + inFlightSweepMargin)

theorem filter_eq_self {α : Type*} {o : Option α} {p : α → Bool} (h : o.all p = true) :
    o.filter p = o := by
  cases o with
  | none => rfl
  | some a => simp only [Option.filter, show p a = true from h, if_true]

variable (h : state.freshFor key now = true)

include h

theorem cache_cleanupExpired_of_freshFor :
    (state.cleanupExpired now).idempotencyCache key = state.idempotencyCache key := by
  simp only [freshFor, Bool.and_eq_true] at h
  rw [cache_cleanupExpired]
  exact filter_eq_self h.1.1

theorem inFlight_cleanupExpired :
    (state.cleanupExpired now).inFlightIdempotency key = state.inFlightIdempotency key := by
  simp only [freshFor, Bool.and_eq_true] at h
  unfold cleanupExpired
  dsimp only
  rw [inFlight_foldl_takePending_of_ne]
  · exact filter_eq_self h.1.2
  · intro id hid pending hp hk
    have he := of_mem_pendingIds hid hp
    have hf := all_eq_true.1 h.2 ⟨id, pending⟩ (AList.mem_lookup_iff.1 hp)
    simp only [hk, bne_self_eq_false, Bool.false_or, decide_eq_true_eq] at hf he
    omega

theorem retains_cleanupExpired : Retains key state (state.cleanupExpired now) := by
  constructor
  · rw [cache_cleanupExpired_of_freshFor h]
    exact id
  · intro id p hl
    have hb := (retains_foldl_takePending _ _ key).pending hl
    exact hb

omit h

theorem retains_storeCachedResponse (state key call response now) :
    Retains key state (state.storeCachedResponse call response now) := by
  refine ⟨fun h => ?_, id⟩
  by_cases hk : key = call.key
  · subst hk
    simp only [storeCachedResponse, update_self, isSome_some]
  · simp only [storeCachedResponse, update_of_ne hk]
    exact h

theorem retains_failInFlightForProvider (state key providerId now) :
    Retains key state (state.failInFlightForProvider providerId now) := by
  unfold failInFlightForProvider
  dsimp only
  have hr :=
    retains_foldl_takePending (state.pendingIds (·.providerId == providerId)) state key
  split
  · exact hr
  · exact ⟨hr.cache, hr.pending⟩

theorem inFlight_failInFlightForProvider {providerId : String}
    (h : ∀ id pending, state.pending.lookup id = some pending → pending.idempotencyKey = key →
      pending.providerId ≠ providerId) (now : Nat) :
    (state.failInFlightForProvider providerId now).inFlightIdempotency key =
      state.inFlightIdempotency key := by
  have hf : ((state.pendingIds (·.providerId == providerId)).foldl takePending
      state).inFlightIdempotency key = state.inFlightIdempotency key := by
    refine inFlight_foldl_takePending_of_ne fun id hid pending hp hk => ?_
    have hpr := of_mem_pendingIds hid hp
    exact h id pending hp hk (beq_iff_eq.1 hpr)
  unfold failInFlightForProvider
  dsimp only
  split
  · exact hf
  · exact hf

end PendingState

end Uptrakit.Surfaces
