import Uptrakit.Surfaces.ExecutedOnce

/-!
# Cached replies

A response is cached under the tenant, the surface, the interaction, the caller and the
idempotency key, with the fingerprint of the parameters.  The provider and the method are not part
of it, although one interaction may be registered under several methods and by several targeted
providers: the response of one of them answers a request to another (`cached_reply_crosses`).  It
does not exactly when the requests that find a response name the provider and the method of the
request for which it was stored (`cached_replies_stay_iff`).
-/

namespace Uptrakit.Surfaces

open Concurrent PendingState List Function

variable {config : ProxyConfig} {s s' : ProxyState} {calls : List Frame} {choice : Choice}
  {call : Invocation}

def Frame.reply? : Frame → Option (Invocation × CachedIdempotent)
  | .leave call _ (.cached cached) | .returned call (.cached cached) => some (call, cached)
  | _ => none

/-- The provider, and the method under which the interaction is registered. -/
def Invocation.place (call : Invocation) : String × InteractionHttpMethod :=
  (call.resolved.providerId, call.resolved.interaction.httpMethod)

/-- The requests name one provider and one method.  What a request leaves open is what the registry
gave when it was resolved. -/
def Invocation.sameOperation (a b : Invocation) : Bool :=
  (match a.request.targetProviderId, b.request.targetProviderId with
    | some target, some target' => target == target'
    | _, _ => a.resolved.providerId == b.resolved.providerId) &&
  match a.request.method, b.request.method with
    | some method, some method' => method == method'
    | _, _ => a.resolved.interaction.httpMethod == b.resolved.interaction.httpMethod

/-- The condition on a move: a request that finds a response is one of the same operation. -/
def findsOwn (sys : System ProxyState Frame) : Move Operation Choice → Bool
  | .start _ => true
  | .run t choice =>
    match sys.calls[t]? with
    | some (.lookup call) =>
      let s := sys.shared.elapse choice.elapsed
      ((s.state.cleanupExpired s.clock).cachedResponse call).all fun cached =>
        cached.origin.sameOperation call
    | _ => true

/-! ## What the requests name -/

/-- The call goes to the provider and has the method that its request names. -/
structure Invocation.AsNamed (call : Invocation) : Prop where
  provider : ∀ target, call.request.targetProviderId = some target →
    call.resolved.providerId = target
  method : ∀ method, call.request.method = some method →
    call.resolved.interaction.httpMethod = method

theorem Invocation.AsNamed.sameOperation_iff {a b : Invocation} (ha : a.AsNamed)
    (hb : b.AsNamed) : a.sameOperation b = true ↔ a.place = b.place := by
  unfold sameOperation place
  rw [Bool.and_eq_true, Prod.mk_inj]
  refine and_congr ?_ ?_
  · split
    · rename_i target target' ht ht'
      rw [ha.provider target ht, hb.provider target' ht', beq_iff_eq]
    · exact beq_iff_eq
  · split
    · rename_i method method' hm hm'
      rw [ha.method method hm, hb.method method' hm', beq_iff_eq]
    · exact beq_iff_eq

theorem asNamed_of_resolveRequest {registry request timeoutOverride target}
    (h : resolveRequest config registry request timeoutOverride target = .ok call)
    (ht : ∀ named, request.targetProviderId = some named → target = some named) :
    call.AsNamed := by
  unfold resolveRequest at h
  split at h
  · cases h
  · rename_i resolved hr
    obtain ⟨hp, hm⟩ := named_of_resolve hr
    have hc : call.request = request ∧ call.resolved = resolved := by
      simp only [bind, Except.bind, pure, Except.pure, throw, throwThe, MonadExceptOf.throw] at h
      split at h
      · cases h
      · split at h
        · cases h
        · split at h
          · cases h
          · split at h
            · cases h
            · cases h
              exact ⟨rfl, rfl⟩
    obtain ⟨rfl, rfl⟩ := hc
    exact ⟨fun named hn => hp named (ht named hn), hm⟩

/-- The calls go where their requests say, and no call that leaves has found a response. -/
def Frame.AsNamed : Frame → Prop
  | .resolve request _ selected =>
    ∀ named, request.targetProviderId = some named → selected = some named
  | .lookup call | .reserve call | .execute call _ | .send call _ | .wait call _
  | .store call _ _ | .returned call _ => call.AsNamed
  | .leave call _ answer => call.AsNamed ∧ ∀ cached, answer ≠ .cached cached
  | _ => True

/-- What is cached was stored under its own key. -/
def CacheNamed (s : ProxyState) : Prop :=
  ∀ key cached, s.state.idempotencyCache key = some cached →
    cached.origin.AsNamed ∧ cached.origin.key = key

variable {f f' : Frame} {requestId : Uuid} {key : IdempotencyKey} {cached : CachedIdempotent}

theorem asNamed_of_ends (h : f.Ends call requestId) (hc : call.AsNamed) : f.AsNamed := by
  rcases h with ⟨hf, answer, rfl⟩ | ⟨_, rfl⟩
  · refine ⟨hc, ?_⟩
    rintro cached rfl
    cases hf
  · exact hc

/-- What is in the cache was there, or the call stores it now. -/
theorem Performs.of_cache (h : Performs config choice s f s' f')
    (hc : s'.state.idempotencyCache key = some cached) :
    s.state.idempotencyCache key = some cached ∨
      (∃ requestId response, f = .store cached.origin requestId response) ∧
        cached.origin.key = key := by
  cases h with
  | finds | misses | refused | executes | registers => exact .inl (of_cache_cleanupExpired hc)
  | unsent _ hs | received _ hs => exact .inl (hs.cache ▸ hc)
  | @stores call =>
    simp only [storeCachedResponse] at hc
    by_cases hk : key = call.key
    · rw [hk, update_self, Option.some.injEq] at hc
      subst hc
      exact .inr ⟨⟨_, _, rfl⟩, hk.symm⟩
    · rw [update_of_ne hk] at hc
      exact .inl (of_cache_cleanupExpired hc)
  | leaves => exact .inl (cache_dropGuard .. ▸ hc)
  | completes =>
    unfold complete at hc
    split at hc
    · exact .inl (cache_takePending .. ▸ hc)
    · exact .inl hc
  | fails =>
    unfold failInFlightForProvider at hc
    dsimp only at hc
    split at hc <;> exact .inl (cache_foldl_takePending .. ▸ hc)
  | _ => exact .inl hc

section Step

variable (h : Performs config choice s f s' f') (hf : f.AsNamed)

include h hf

theorem Performs.cacheNamed (hs : CacheNamed s) : CacheNamed s' := by
  intro key cached hc
  rcases h.of_cache hc with hb | ⟨⟨_, _, rfl⟩, hk⟩
  · exact hs key cached hb
  · exact ⟨hf, hk⟩

theorem Performs.asNamed : f'.AsNamed := by
  cases h with
  | @targets request _ target ht =>
    intro named hn
    simpa [implicitTargetProvider, hn] using ht.symm
  | resolves hr => exact asNamed_of_resolveRequest hr hf
  | executed he | received he => exact asNamed_of_ends he hf
  | unsent hfa => exact asNamed_of_ends (.inl ⟨hfa, _, rfl⟩) hf
  | stores => exact ⟨hf, fun _ => Answer.noConfusion⟩
  | leaves => exact hf.1
  | untargeted | unresolved | rejected | completes | fails | registry | done => trivial
  | _ => exact hf

/-- A cached response that is an answer was one before, or is found now. -/
theorem Performs.of_reply (hr : f' = .returned call (.cached cached)) :
    f = f' ∨ f = .lookup call ∧ (s.state.cleanupExpired s.clock).cachedResponse call =
      some cached := by
  cases h with
  | finds hfo =>
    cases hr
    exact .inr ⟨rfl, hfo⟩
  | executed he | received he =>
    obtain ⟨_, _, hl⟩ | ⟨_, hs⟩ := he
    · cases hr.symm.trans hl
    · cases hr.symm.trans hs
  | leaves =>
    cases hr
    exact absurd rfl (hf.2 cached)
  | returned => exact .inl rfl
  | _ => cases hr

end Step

/-! ## Runs -/

/-- A cached response answers a request to the provider, the interaction and the method for which
it was stored. -/
def RepliesStay (sys : System ProxyState Frame) : Prop :=
  ∀ call cached, .returned call (.cached cached) ∈ sys.calls →
    cached.origin.resolved.providerId = call.resolved.providerId ∧
      cached.origin.resolved.interaction.interactionId =
        call.resolved.interaction.interactionId ∧
      cached.origin.resolved.interaction.httpMethod = call.resolved.interaction.httpMethod

structure Named (sys : System ProxyState Frame) : Prop where
  calls : ∀ f ∈ sys.calls, f.AsNamed
  cache : CacheNamed sys.shared

theorem Named.move {sys : System ProxyState Frame} (h : Named sys) (m : Move Operation Choice) :
    Named ((proxy config).move sys m) := by
  cases m with
  | start operation =>
    refine ⟨Calls.forall_calls_start h.calls ?_, h.cache⟩
    cases operation <;> trivial
  | run t choice =>
    rw [Calls.move]
    cases hc : sys.calls[t]? with
    | none => exact h
    | some f =>
      have hp := performs_perform config choice (sys.shared.elapse choice.elapsed) f
      have hf := h.calls f (mem_of_getElem? hc)
      refine ⟨?_, hp.cacheNamed hf h.cache⟩
      intro g hg
      rcases mem_or_eq_of_mem_set hg with hg | rfl
      · exact h.calls g hg
      · exact hp.asNamed hf

/-- A response that is found was stored under the key of the request. -/
theorem CacheNamed.of_cachedResponse (h : CacheNamed s)
    (hf : (s.state.cleanupExpired s.clock).cachedResponse call = some cached) :
    cached.origin.AsNamed ∧ cached.origin.key = call.key :=
  h _ _ (of_cache_cleanupExpired (Option.filter_eq_some_iff.1 hf).1)

/-- The interaction is part of the key. -/
theorem stays_iff {origin : Invocation} (ho : origin.AsNamed) (hc : call.AsNamed)
    (hk : origin.key = call.key) :
    (origin.resolved.providerId = call.resolved.providerId ∧
      origin.resolved.interaction.interactionId = call.resolved.interaction.interactionId ∧
      origin.resolved.interaction.httpMethod = call.resolved.interaction.httpMethod) ↔
        origin.sameOperation call = true := by
  have hi : origin.request.interactionId = call.request.interactionId :=
    congrArg IdempotencyKey.interactionId hk
  rw [ho.sameOperation_iff hc, origin.interaction, call.interaction]
  simp [Invocation.place, hi]

/-- A move keeps the replies where they belong exactly when it meets the condition. -/
theorem repliesStay_move_iff {sys : System ProxyState Frame} (h : Named sys)
    (hs : RepliesStay sys) (m : Move Operation Choice) :
    RepliesStay ((proxy config).move sys m) ↔ findsOwn sys m = true := by
  cases m with
  | start operation =>
    refine iff_of_true ?_ rfl
    intro call cached hm
    rcases mem_append.1 hm with hm | hm
    · exact hs call cached hm
    · cases operation <;> cases mem_singleton.1 hm
  | run t choice =>
    rw [Calls.move]
    cases hc : sys.calls[t]? with
    | none => simpa [findsOwn, hc] using hs
    | some f =>
      have hlt : t < sys.calls.length := (List.getElem?_eq_some_iff.1 hc).1
      have hf := h.calls f (mem_of_getElem? hc)
      constructor
      · intro hs'
        rw [findsOwn, hc]
        split
        · rename_i call heq
          cases heq
          rw [Option.all_eq_true]
          intro cached hfo
          obtain ⟨ho, hk⟩ := h.cache.of_cachedResponse (s := sys.shared.elapse _) hfo
          refine (stays_iff ho hf hk).1 (hs' call cached ?_)
          have hn : ((proxy config).step choice sys.shared (.lookup call)).2 =
              .returned call (.cached cached) := by
            simp [proxy, perform, hfo]
          rw [← hn]
          exact mem_set hlt _
        · rfl
      · intro hok call cached hm
        rcases mem_or_eq_of_mem_set hm with hm | hn
        · exact hs call cached hm
        · have hp := performs_perform config choice (sys.shared.elapse choice.elapsed) f
          rcases hp.of_reply hf hn.symm with hsa | ⟨rfl, hfo⟩
          · exact hs call cached (hn.trans hsa.symm ▸ mem_of_getElem? hc)
          · obtain ⟨ho, hk⟩ := h.cache.of_cachedResponse (s := sys.shared.elapse _) hfo
            rw [findsOwn, hc] at hok
            exact (stays_iff ho hf hk).2 ((Option.all_eq_true _ _).1 hok cached hfo)

/-- In every state of a run the cached responses answer requests to the provider, the interaction
and the method for which they were stored, exactly when every request that finds one is of the same
operation. -/
theorem cached_replies_stay_iff (config : ProxyConfig) (registry : SurfaceRegistryInner)
    (clock : Nat) (moves : List (Move Operation Choice)) :
    (∀ n, RepliesStay ((proxy config).run ⟨.init registry clock, []⟩ (moves.take n))) ↔
      Meets (proxy config).move (fun sys m => findsOwn sys m = true)
        ⟨.init registry clock, []⟩ moves := by
  have hn : Named ⟨.init registry clock, []⟩ := by
    refine ⟨by simp, ?_⟩
    intro key cached hc
    cases hc
  refine forall_foldl_take_iff_meets (meets_of_forall (fun _ _ => trivial) _ _) ?_ ?_ hn
    (by simp [RepliesStay])
  · intro _ m h _ _
    exact h.move m
  · intro _ m h _ hs
    exact repliesStay_move_iff h hs m

/-! ## A reply of another operation -/

def limitsSurface : RegisteredSurface where
  descriptor := ⟨"tools.limits", .tenant, .targeted, none, .service, ""⟩
  interactions :=
    [⟨"limits", .mutationAction, .post, none, [], .providerProxied, false, ""⟩,
      ⟨"limits", .mutationAction, .put, none, [], .providerProxied, false, ""⟩]
  dataSources := []

def limitsProvider (providerId : String) : SurfaceRegistration where
  provider := ⟨providerId, .service⟩
  effectiveTenantBinding := ⟨.tenant, some "tenant-1"⟩
  surfaces := [limitsSurface]
  encryptionMetadata := none

def twoTargets : List Event :=
  [.call (.registerService 7 "tools" (some 1) (limitsProvider "service.a")),
    .call (.registerService 8 "tools" (some 1) (limitsProvider "service.b"))]

def changeLimits (method : InteractionHttpMethod) (target : String) : SurfaceInvokeRequest where
  tenantId := 1
  surfaceId := "tools.limits"
  interactionId := "limits"
  method := some method
  idempotencyKey := "key-1"
  targetProviderId := some target
  callerOrigin := .userSession 5 "session-1"
  params := "all"
  encryptedSensitiveParams := none

def after (request : SurfaceInvokeRequest) : List (Move Operation Choice) :=
  [[.start (.invoke (changeLimits .post "service.a") none)], turns 0 5,
    [.start (.complete 0 (refreshed 0))], turns 1 1, turns 0 3,
    [.start (.invoke request none)], turns 2 3].flatten

/-- The answers from the cache: where the response is from, and where the request goes. -/
def repliesAfter (request : SurfaceInvokeRequest) :
    List ((String × InteractionHttpMethod) × (String × InteractionHttpMethod)) :=
  ((proxy openProxy).run ⟨.init (registryAfter openConfig twoTargets) 0, []⟩
    (after request)).calls.filterMap fun f =>
      f.reply?.map fun (call, cached) => (cached.origin.place, call.place)

/-- The response to a `POST` answers a `PUT`, and the response of one service answers a request to
another one. -/
theorem cached_reply_crosses :
    repliesAfter (changeLimits .put "service.a") = [(("service.a", .post), ("service.a", .put))] ∧
      repliesAfter (changeLimits .post "service.b") =
        [(("service.a", .post), ("service.b", .post))] := by
  decide +kernel

/-- A request that is repeated is answered from the cache. -/
example :
    repliesAfter (changeLimits .post "service.a") =
      [(("service.a", .post), ("service.a", .post))] := by
  decide +kernel

end Uptrakit.Surfaces
