import Uptrakit.Surfaces.Ownership
import Uptrakit.Surfaces.Proxy

/-!
# Executions of an idempotency key

A call looks for a cached response in one critical section and reserves its key in another.  The
reservation ends when the response of the provider comes, the response is cached some time later,
and the check that precedes a reservation lets a cached response of the same fingerprint pass.  So
a call that has found nothing in the cache executes the action once more if it makes its
reservation between the response and its storing, or after the storing (`executed_twice`).

Otherwise an action is executed once for a key (`executed_once_per_key`).
-/

namespace Uptrakit.Surfaces

open Concurrent PendingState List Surfaces.Frame Option Function Nat

variable {config : ProxyConfig} {key : IdempotencyKey} {s s' : ProxyState} {calls : List Frame}
  {choice : Choice}

/-! ## Calls of a key -/

def Frame.reserved (key : IdempotencyKey) : Frame → Bool
  | .execute call _ | .send call _ | .wait call _ | .store call _ _ | .leave call _ _
  | .returned call (.executed _) => decide (call.key = key)
  | _ => false

def Frame.begun (key : IdempotencyKey) : Frame → Bool
  | .execute call _ | .wait call _ | .store call _ _ | .leave call _ _
  | .returned call (.executed _) => decide (call.key = key)
  | _ => false

def Frame.unstored (key : IdempotencyKey) (delivered : Uuid → Option SurfaceActionResponse) :
    Frame → Bool
  | .execute call requestId | .send call requestId | .wait call requestId =>
    decide (call.key = key) && (delivered requestId).isSome
  | .store call _ _ => decide (call.key = key)
  | _ => false

def Frame.request? : Frame → Option (Invocation × Uuid)
  | .execute call requestId | .send call requestId | .wait call requestId
  | .store call requestId _ | .leave call requestId _ => some (call, requestId)
  | _ => none

/-- The provider can be reached and is not overloaded.  If the key is not reserved, then no
response of the key is on its way to the cache, and none is there for the call. -/
def reservesAlone (choice : Choice) (calls : List Frame) (s : ProxyState) (call : Invocation) :
    Bool :=
  (unavailable choice call).isNone &&
    (overloaded (s.state.cleanupExpired s.clock) call s.clock).isNone &&
      ((s.state.inFlightIdempotency call.key).isSome ||
        (s.state.cachedResponse call).isNone &&
          calls.all fun g => !g.unstored call.key s.delivered)

def Frame.undisturbed (config : ProxyConfig) (key : IdempotencyKey) (choice : Choice)
    (calls : List Frame) (s : ProxyState) : Frame → Bool
  | .reserve call => decide (call.key ≠ key) || reservesAlone choice calls s call
  | .execute call requestId =>
    decide (call.key ≠ key) || !(executeStep config choice call requestId).failed
  | .send call requestId =>
    decide (call.key ≠ key) || !(sendStep choice s call requestId).2.failed
  | .wait call requestId =>
    decide (call.key ≠ key) || !(waitStep config choice s call requestId).2.failed
  | .failInFlight providerId =>
    s.state.pending.entries.all fun entry =>
      decide (entry.2.idempotencyKey ≠ key) || decide (entry.2.providerId ≠ providerId)
  | _ => true

/-- The condition on a move: nothing of the key expires, no call of the key fails, and its calls
reserve it alone. -/
def undisturbed (config : ProxyConfig) (key : IdempotencyKey) (sys : System ProxyState Frame) :
    Move Operation Choice → Bool
  | .start _ => true
  | .run t choice =>
    let s := sys.shared.elapse choice.elapsed
    s.state.freshFor key s.clock &&
      (sys.calls[t]?).all fun f => f.undisturbed config key choice sys.calls s

/-! ## What is known of a call -/

/-- The key is reserved for the request, or its response has come. -/
def Reserved (s : ProxyState) (key : IdempotencyKey) (requestId : Uuid) : Prop :=
  (∃ inFlight, s.state.inFlightIdempotency key = some inFlight ∧ inFlight.owner = requestId) ∨
    (s.delivered requestId).isSome = true

/-- A response of the key is cached. -/
def Stored (s : ProxyState) (key : IdempotencyKey) : Prop :=
  (s.state.idempotencyCache key).isSome = true

/-- The call has executed its action. -/
def Logged (s : ProxyState) (call : Invocation) : Prop :=
  ∃ execution ∈ s.executions, execution.call = call

/-- A pending request with the id of the call is the one of the call. -/
def Frame.Known (s : ProxyState) (f : Frame) : Prop :=
  ∀ call requestId, f.request? = some (call, requestId) →
    requestId < s.nextRequestId ∧
      ∀ pending, s.state.pending.lookup requestId = some pending →
        pending.idempotencyKey = call.key

/-- What a call of the key holds. -/
def Frame.Held (key : IdempotencyKey) (s : ProxyState) : Frame → Prop
  | .execute call requestId | .wait call requestId =>
    call.key = key → Reserved s key requestId ∧ Logged s call
  | .send call requestId => call.key = key → Reserved s key requestId
  | .store call _ _ => call.key = key → Logged s call
  | .leave call _ answer =>
    call.key = key → ∃ response, answer = .executed response ∧ Stored s key ∧ Logged s call
  | .returned call answer =>
    call.key = key → (∃ cached, answer = .cached cached) ∨ answer = .error .duplicateRequest ∨
      ∃ response, answer = .executed response ∧ Stored s key ∧ Logged s call
  | _ => True

/-- One call at most has reserved the key, and an execution of the key is one of such a call. -/
structure Once (key : IdempotencyKey) (s : ProxyState) (calls : List Frame) : Prop where
  pending : ∀ id p, s.state.pending.lookup id = some p → id < s.nextRequestId
  known : ∀ f ∈ calls, f.Known s
  held : ∀ f ∈ calls, f.Held key s
  one : calls.countP (·.reserved key) ≤ 1
  log : s.executions.countP (fun execution => decide (execution.call.key = key)) ≤
    calls.countP (·.begun key)

/-! ## The other calls -/

/-- What every step leaves to the other calls. -/
structure Extends (key : IdempotencyKey) (s s' : ProxyState) : Prop where
  cache : Stored s key → Stored s' key
  pending : ∀ id p, s'.state.pending.lookup id = some p →
    s.state.pending.lookup id = some p ∨ s.nextRequestId ≤ id ∧ id < s'.nextRequestId
  next : s.nextRequestId ≤ s'.nextRequestId
  executions : ∀ execution ∈ s.executions, execution ∈ s'.executions

theorem Extends.refl (key s) : Extends key s s :=
  ⟨id, fun _ _ => .inl, le_rfl, fun _ => id⟩

variable {state : PendingState} {call : Invocation} {f f' : Frame} {id requestId : Uuid}

/-- A step that changes only the bookkeeping. -/
theorem Extends.of_retains (h : s.state.Retains key state) : Extends key s { s with state } :=
  ⟨h.cache, fun _ _ hl => .inl (h.pending hl), le_rfl, fun _ => id⟩

theorem Logged.mono (h : Logged s call) (he : Extends key s s') : Logged s' call := by
  obtain ⟨execution, hm, hc⟩ := h
  exact ⟨execution, he.executions execution hm, hc⟩

theorem Frame.Known.mono (h : f.Known s) (he : Extends key s s') : f.Known s' := by
  intro call requestId hr
  obtain ⟨hlt, hp⟩ := h call requestId hr
  refine ⟨lt_of_lt_of_le hlt he.next, fun pending hl => ?_⟩
  rcases he.pending requestId pending hl with hl | ⟨hle, _⟩
  · exact hp pending hl
  · exact absurd hlt (not_lt.2 hle)

theorem Frame.Held.mono (h : f.Held key s) (he : Extends key s s')
    (hr : f.reserved key = true → ∀ id, Reserved s key id → Reserved s' key id) :
    f.Held key s' := by
  cases f with
  | execute | wait =>
    intro hk
    obtain ⟨hheld, hl⟩ := h hk
    exact ⟨hr (decide_eq_true hk) _ hheld, hl.mono he⟩
  | send => exact fun hk => hr (decide_eq_true hk) _ (h hk)
  | store => exact fun hk => (h hk).mono he
  | leave =>
    intro hk
    obtain ⟨response, ha, hs, hl⟩ := h hk
    exact ⟨response, ha, he.cache hs, hl.mono he⟩
  | returned =>
    intro hk
    rcases h hk with hc | hd | ⟨response, ha, hs, hl⟩
    · exact .inl hc
    · exact .inr (.inl hd)
    · exact .inr (.inr ⟨response, ha, he.cache hs, hl.mono he⟩)
  | _ => trivial

theorem cache_dropGuard (state call requestId) :
    (dropGuard state call requestId).idempotencyCache = state.idempotencyCache := by
  unfold dropGuard
  split
  · exact cache_releaseIdempotency _ _ _
  · exact cache_takePending _ _

variable (hfresh : s.state.freshFor key s.clock = true)

include hfresh

theorem Performs.extends (h : Performs config choice s f s' f') : Extends key s s' := by
  have hc := retains_cleanupExpired hfresh
  cases h with
  | finds | misses | refused => exact .of_retains hc
  | executes =>
    exact ⟨hc.cache, fun _ _ hl => .inl (hc.pending hl), le_succ _, fun _ => mem_append_left _⟩
  | registers =>
    refine ⟨hc.cache, fun id p hl => ?_, le_succ _, fun _ => id⟩
    simp only [registerPending, reserveIdempotency] at hl
    by_cases hid : id = s.nextRequestId
    · subst hid
      exact .inr ⟨le_rfl, lt_succ_self _⟩
    · rw [AList.lookup_insert_ne hid] at hl
      exact .inl (hc.pending hl)
  | unsent _ hs | received _ hs => exact .of_retains hs.retains
  | sent => exact ⟨id, fun _ _ => .inl, le_rfl, fun _ => mem_append_left _⟩
  | stores =>
    exact .of_retains (hc.trans (retains_storeCachedResponse _ key _ _ s.clock))
  | leaves =>
    unfold dropGuard
    split
    · exact .of_retains (s.state.retains_releaseIdempotency key _ _)
    · exact .of_retains (s.state.retains_takePending key _)
  | @completes requestId =>
    unfold complete
    split
    · have hr := s.state.retains_takePending key requestId
      exact ⟨hr.cache, fun _ _ hl => .inl (hr.pending hl), le_rfl, fun _ => id⟩
    · exact .refl key s
  | fails => exact .of_retains (s.state.retains_failInFlightForProvider key _ s.clock)
  | registry => exact ⟨id, fun _ _ => .inl, le_rfl, fun _ => id⟩
  | _ => exact .refl key s

omit hfresh

/-! ## Reservations -/

theorem Reserved.of_eq (h : Reserved s key id)
    (hi : s'.state.inFlightIdempotency key = s.state.inFlightIdempotency key)
    (hd : s'.delivered = s.delivered) : Reserved s' key id := by
  unfold Reserved
  rw [hi, hd]
  exact h

/-- A response comes: the reservation of its request ends, the others stay. -/
theorem Reserved.complete (h : Reserved s key id) (requestId response) :
    Reserved (complete s requestId response) key id := by
  unfold Surfaces.complete
  split
  · by_cases hid : id = requestId
    · subst hid
      right
      simp only [update_self, isSome_some]
    · rcases h with ⟨inFlight, hi, ho⟩ | hd
      · refine .inl ⟨inFlight, ?_, ho⟩
        unfold takePending
        split
        · exact hi
        · next p _ =>
          by_cases hk : key = p.idempotencyKey
          · rwa [releaseIdempotency, if_neg]
            simp only [← hk, hi, any_some, beq_iff_eq]
            rwa [ho]
          · rwa [inFlight_releaseIdempotency_of_ne hk]
      · right
        simp only [update_of_ne hid]
        exact hd
  · exact h

variable (hheld : ∀ g ∈ calls, g.Held key s)

include hheld in
/-- When the key is not reserved and nothing is cached or on its way, no call has reserved it. -/
theorem none_reserved (hi : s.state.inFlightIdempotency key = none)
    (hca : s.state.idempotencyCache key = none)
    (hu : ∀ g ∈ calls, g.unstored key s.delivered = false) :
    ∀ g ∈ calls, g.reserved key = false := by
  intro g hg
  by_contra hr
  rw [Bool.not_eq_false] at hr
  have hheld := hheld g hg
  have hu := hu g hg
  have hd : ∀ {id : Uuid}, Reserved s key id → (s.delivered id).isSome = true := by
    rintro id (⟨_, hso, _⟩ | hd)
    · rw [hi] at hso
      cases hso
    · exact hd
  have hs : ¬Stored s key := by
    unfold Stored
    rw [hca]
    exact Bool.false_ne_true
  cases g with
  | execute call | wait call =>
    have hk : call.key = key := of_decide_eq_true hr
    simp [unstored, hk, hd (hheld hk).1] at hu
  | send call =>
    have hk : call.key = key := of_decide_eq_true hr
    simp [unstored, hk, hd (hheld hk)] at hu
  | store =>
    exact of_decide_eq_false hu (of_decide_eq_true hr)
  | leave =>
    obtain ⟨_, _, hc, _⟩ := hheld (of_decide_eq_true hr)
    exact hs hc
  | returned _ answer =>
    cases answer with
    | executed =>
      rcases hheld (of_decide_eq_true hr) with ⟨_, ⟨⟩⟩ | ⟨⟨⟩⟩ | ⟨_, _, hc, _⟩
      exact hs hc
    | _ => cases hr
  | _ => cases hr

/-! ## The call that takes the step -/

include hfresh hheld in
/-- A call that reserves its key alone is the first one to do so. -/
theorem none_reserved_of_reservesAlone (hok : reservesAlone choice calls s call = true)
    (hk : call.key = key) (he : (s.state.cleanupExpired s.clock).ensureIdempotencyAvailable
      call.key call.requestFingerprint = none) : ∀ g ∈ calls, g.reserved key = false := by
  subst hk
  simp only [reservesAlone, Bool.and_eq_true] at hok
  unfold ensureIdempotencyAvailable at he
  rw [inFlight_cleanupExpired hfresh, cache_cleanupExpired_of_freshFor hfresh] at he
  split_ifs at he with hi hca
  rw [not_isSome_iff_eq_none] at hi
  obtain ⟨-, ha⟩ := hok
  rw [hi, isSome_none, Bool.false_or, Bool.and_eq_true] at ha
  obtain ⟨hc, hu⟩ := ha
  refine none_reserved hheld hi ?_ fun g hg => by simpa using all_eq_true.1 hu g hg
  -- What is cached has the fingerprint of the call, and would have been found.
  cases hs : s.state.idempotencyCache call.key with
  | none => rfl
  | some cached =>
    unfold cachedResponse at hc
    simp only [hs, any_some, bne_iff_ne, not_not] at hca
    rw [hs, filter_some, hca, beq_self_eq_true] at hc
    cases hc

include hfresh hheld in
/-- The reservations of the others stay, or no call has reserved the key. -/
theorem Performs.reserved (h : Performs config choice s f s' f') (hk : f.Known s)
    (hok : f.undisturbed config key choice calls s = true) (hf : f.reserved key = false) :
    (∀ id, Reserved s key id → Reserved s' key id) ∨ ∀ g ∈ calls, g.reserved key = false := by
  have hc := inFlight_cleanupExpired hfresh
  -- A pending request that this call takes is of another key.
  have ho : ∀ {call : Invocation} {requestId : Uuid}, f.request? = some (call, requestId) →
      call.key ≠ key → ∀ pending, s.state.pending.lookup requestId = some pending →
        pending.idempotencyKey ≠ key := by
    intro call requestId hr hke pending hp
    rw [(hk call requestId hr).2 pending hp]
    exact hke
  cases h with
  | finds | misses | refused | stores => exact .inl fun _ h => h.of_eq hc rfl
  | @executes call he | @registers call he =>
    by_cases hke : call.key = key
    · simp only [Frame.undisturbed, hke, ne_eq] at hok
      exact .inr (none_reserved_of_reservesAlone hfresh hheld hok hke he)
    · refine .inl fun _ h => h.of_eq (.trans ?_ hc) rfl
      exact update_of_ne (Ne.symm hke) _ _
  | unsent _ hs | received _ hs =>
    exact .inl fun _ h => h.of_eq (hs.inFlight (ho rfl (of_decide_eq_false hf))) rfl
  | @leaves call requestId =>
    have hke : call.key ≠ key := of_decide_eq_false hf
    refine .inl fun _ h => h.of_eq ?_ rfl
    unfold dropGuard
    split
    · exact inFlight_releaseIdempotency_of_ne hke.symm requestId
    · exact inFlight_takePending_of_ne (ho rfl hke)
  | completes => exact .inl fun _ h => h.complete _ _
  | fails =>
    refine .inl fun _ h => h.of_eq (inFlight_failInFlightForProvider ?_ s.clock) rfl
    intro requestId pending hp hke
    have hpr :=
      all_eq_true.1 hok ⟨requestId, pending⟩ (AList.mem_lookup_iff.1 hp)
    simpa [hke] using hpr
  | _ => exact .inl fun _ h => h.of_eq rfl rfl

/-- What a step does to its own call and to the count of the executions of the key. -/
structure Own (key : IdempotencyKey) (calls : List Frame) (s : ProxyState) (f : Frame)
    (next : ProxyState × Frame) : Prop where
  held : next.2.Held key next.1
  reserved : next.2.reserved key = true →
    f.reserved key = true ∨ ∀ g ∈ calls, g.reserved key = false
  log : next.1.executions.countP (fun execution => decide (execution.call.key = key)) +
      (if f.begun key then 1 else 0) ≤
    s.executions.countP (fun execution => decide (execution.call.key = key)) +
      if next.2.begun key then 1 else 0

theorem Own.of_idle (hheld : f'.Held key s') (hr : f'.reserved key = false)
    (hb : f.begun key = false) (he : s'.executions = s.executions) :
    Own key calls s f (s', f') := by
  refine ⟨hheld, fun h => ?_, ?_⟩
  · rw [hr] at h
    cases h
  · rw [he, hb, if_neg Bool.false_ne_true]
    omega

/-- A step with which the call stays among those that have reserved and executed. -/
theorem Own.of_eq (hheld : f'.Held key s') (hr : f'.reserved key = f.reserved key)
    (hb : f'.begun key = f.begun key) (he : s'.executions = s.executions) :
    Own key calls s f (s', f') := by
  refine ⟨hheld, fun h => ?_, ?_⟩
  · rw [hr] at h
    exact .inl h
  · rw [he, hb]

include hfresh hheld in
theorem own_perform (hf : f ∈ calls) (hok : f.undisturbed config key choice calls s = true) :
    Own key calls s f (perform config choice s f) := by
  have ho := hheld f hf
  have ha : ∀ call, f = .reserve call → call.key = key →
      reservesAlone choice calls s call = true := by
    rintro call rfl hk
    simpa [Frame.undisturbed, hk] using hok
  have hfa : ∀ {call requestId}, f.request? = some (call, requestId) → call.key = key →
      (perform config choice s f).2.failed = false := by
    intro call requestId hre hk
    cases f with
    | execute | send | wait =>
      cases hre
      simpa [Frame.undisturbed, perform, hk] using hok
    | store | leave => rfl
    | _ => cases hre
  have hp := performs_perform config choice s f
  generalize perform config choice s f = next at hfa hp ⊢
  obtain ⟨_, _⟩ := next
  cases hp with
  | finds => exact .of_idle (fun _ => .inl ⟨_, rfl⟩) rfl rfl rfl
  | unavailable h =>
    refine .of_idle (fun hk => ?_) rfl rfl rfl
    simpa [reservesAlone, h] using ha _ rfl hk
  | refused h =>
    refine .of_idle (fun hk => .inr (.inl ?_)) rfl rfl rfl
    have hok := ha _ rfl hk
    simp only [reservesAlone, Bool.and_eq_true, isNone_iff_eq_none] at hok
    rw [hok.1.2] at h
    -- the only reason to refuse a key
    revert h
    fun_cases ensureIdempotencyAvailable with
    | case3 => rintro ⟨⟩
    | _ =>
      rintro ⟨⟩
      rfl
  | executes hen =>
    refine ⟨fun hk => ⟨.inl ?_, ?_⟩, fun hr => .inr ?_, ?_⟩
    · simp [reserveIdempotency, hk]
    · exact ⟨_, mem_append_right _ (mem_singleton_self _), rfl⟩
    · have hk := of_decide_eq_true hr
      exact none_reserved_of_reservesAlone hfresh hheld (ha _ rfl hk) hk hen
    · simp [begun]
  | registers hen =>
    refine ⟨fun hk => .inl ?_, fun hr => .inr ?_, by simp [begun]⟩
    · simp [registerPending, reserveIdempotency, hk]
    · have hk := of_decide_eq_true hr
      exact none_reserved_of_reservesAlone hfresh hheld (ha _ rfl hk) hk hen
  | executed he | received he =>
    rcases he with ⟨he, _, rfl⟩ | ⟨_, rfl⟩
    · refine .of_eq (fun hk => ?_) rfl rfl rfl
      rw [hfa rfl hk] at he
      cases he
    · exact .of_eq (fun hk => (ho hk).2) rfl rfl rfl
  | unsent hfai =>
    refine ⟨fun hk => ?_, .inl, le_add_right _ _⟩
    rw [hfa rfl hk] at hfai
    cases hfai
  | sent =>
    refine ⟨fun hk => ⟨ho hk, ?_⟩, .inl, ?_⟩
    · exact ⟨_, mem_append_right _ (mem_singleton_self _), rfl⟩
    · simp [begun]
  | stores =>
    refine .of_eq (fun hk => ⟨_, rfl, ?_, ho hk⟩) rfl rfl rfl
    subst hk
    simp [Stored, storeCachedResponse]
  | @leaves call requestId answer =>
    by_cases hk : call.key = key
    · obtain ⟨response, rfl, hs, hl⟩ := ho hk
      refine .of_eq (fun _ => .inr (.inr ⟨response, rfl, ?_, hl⟩)) rfl rfl rfl
      show ((dropGuard s.state call requestId).idempotencyCache key).isSome = true
      rw [cache_dropGuard]
      exact hs
    · refine .of_idle (fun h => absurd h hk) ?_ (decide_eq_false hk) rfl
      cases answer with
      | executed => exact decide_eq_false hk
      | _ => rfl
  | waits | returned => exact .of_eq ho rfl rfl rfl
  | completes =>
    refine .of_idle trivial rfl rfl ?_
    show (complete s _ _).executions = _
    unfold complete
    split <;> rfl
  | _ => exact .of_idle trivial rfl rfl rfl

/-! ## Ids of requests -/

theorem request?_of_ends (h : f.Ends call requestId) : f.request? = some (call, requestId) := by
  rcases h with ⟨_, _, rfl⟩ | ⟨_, rfl⟩
  · rfl
  · rfl

include hfresh in
theorem Performs.known (h : Performs config choice s f s' f')
    (hp : ∀ id p, s.state.pending.lookup id = some p → id < s.nextRequestId)
    (hk : f.Known s) : f'.Known s' := by
  have hre := retains_cleanupExpired hfresh
  replace hk := hk.mono (h.extends hfresh)
  cases h with
  | executes =>
    rintro _ _ ⟨⟩
    refine ⟨lt_succ_self _, fun pending hl => ?_⟩
    exact absurd (hp _ _ (hre.pending hl)) (lt_irrefl _)
  | registers =>
    rintro _ _ ⟨⟩
    refine ⟨lt_succ_self _, fun pending hl => ?_⟩
    simp only [registerPending, reserveIdempotency, AList.lookup_insert, some.injEq] at hl
    subst hl
    rfl
  | executed he | received he =>
    intro call requestId hr
    rw [request?_of_ends he] at hr
    exact hk call requestId hr
  | unsent | sent | waits | stores => exact hk
  | _ => rintro _ _ ⟨⟩

/-! ## Runs -/

theorem Once.init (key registry clock) : Once key (.init registry clock) [] where
  pending := by rintro id p ⟨⟩
  known := by rintro f ⟨⟩
  held := by rintro f ⟨⟩
  one := zero_le 1
  log := le_rfl

variable (h : Once key s calls)

include h

theorem Once.elapse (elapsed : Nat) : Once key (s.elapse elapsed) calls := by
  have he : Extends key s (s.elapse elapsed) := ⟨id, fun _ _ => .inl, le_rfl, fun _ => id⟩
  exact ⟨h.pending, fun f hf => (h.known f hf).mono he,
    fun f hf => (h.held f hf).mono he fun _ _ => id, h.one, h.log⟩

theorem Once.start (operation : Operation) : Once key s (calls ++ [operation.enter]) := by
  have hk : operation.enter.Known s := by
    cases operation <;> rintro _ _ ⟨⟩
  have hheld : operation.enter.Held key s := by
    cases operation <;> trivial
  have hr : operation.enter.reserved key = false := by
    cases operation <;> rfl
  refine ⟨h.pending, ?_, ?_, ?_, ?_⟩
  · exact forall_mem_append.2 ⟨h.known, forall_mem_singleton.2 hk⟩
  · exact forall_mem_append.2 ⟨h.held, forall_mem_singleton.2 hheld⟩
  · rw [countP_append, countP_singleton, hr]
    exact h.one
  · rw [countP_append]
    exact h.log.trans (le_add_right _ _)

theorem Once.step {t : Nat} (hc : calls[t]? = some f)
    (hfresh : s.state.freshFor key s.clock = true)
    (hok : f.undisturbed config key choice calls s = true) :
    Once key (perform config choice s f).1 (calls.set t (perform config choice s f).2) := by
  have hf : f ∈ calls := mem_of_getElem? hc
  have hlt : t < calls.length := (List.getElem?_eq_some_iff.1 hc).1
  have hp := performs_perform config choice s f
  have he := hp.extends hfresh
  have how := own_perform hfresh h.held hf hok
  refine ⟨?_, ?_, ?_, ?_, ?_⟩
  · intro id p hl
    rcases he.pending id p hl with hb | ⟨_, hlt⟩
    · exact lt_of_lt_of_le (h.pending id p hb) he.next
    · exact hlt
  · intro g hg
    rcases mem_or_eq_of_mem_set hg with hg | rfl
    · exact (h.known g hg).mono he
    · exact hp.known hfresh h.pending (h.known f hf)
  · intro g hg
    obtain ⟨i, hi⟩ := getElem?_of_mem hg
    rcases (getElem?_set_eq_some_iff hlt).1 hi with ⟨_, rfl⟩ | ⟨hne, hi⟩
    · exact how.held
    · refine (h.held g (mem_of_getElem? hi)).mono he fun hr => ?_
      have ho : f.reserved key = false := by
        by_contra ht
        exact hne (eq_of_countP_le_one h.one hi hc hr (by simpa using ht))
      rcases hp.reserved hfresh h.held (h.known f hf) hok ho with hk | hn
      · exact hk
      · rw [hn g (mem_of_getElem? hi)] at hr
        cases hr
  · refine countP_set_le_one hc h.one fun hr => ?_
    refine (how.reserved hr).imp_right fun hn g hg => ?_
    rw [hn g hg]
    exact Bool.false_ne_true
  · have hco := countP_set_add hc (perform config choice s f).2 (·.begun key)
    have hlo := how.log
    have hb := h.log
    omega

omit h

def Frame.executed (key : IdempotencyKey) : Frame → Bool
  | .returned call (.executed _) => decide (call.key = key)
  | _ => false

theorem Frame.reserved_of_executed : f.executed key = true → f.reserved key = true := by
  fun_cases f.executed key with
  | case1 => exact id
  | case2 => nofun

theorem Frame.reserved_of_begun : f.begun key = true → f.reserved key = true := by
  fun_cases f.begun key with
  | case6 => nofun
  | _ => exact id

/-- The action is executed by at most one call of the key; every other call of the key gets a
cached response or is refused as a duplicate. -/
structure ExecutedOnce (key : IdempotencyKey) (sys : System ProxyState Frame) : Prop where
  once : sys.shared.executions.countP (fun execution => decide (execution.call.key = key)) ≤ 1
  one : sys.calls.countP (·.executed key) ≤ 1
  answer : ∀ call answer, .returned call answer ∈ sys.calls → call.key = key →
    (∃ cached, answer = .cached cached) ∨ answer = .error .duplicateRequest ∨
      ∃ response, answer = .executed response ∧ Logged sys.shared call

/-- In every run whose moves meet the condition, the action is executed once for the key. -/
theorem executed_once_per_key (config : ProxyConfig) (registry : SurfaceRegistryInner)
    (clock : Nat) (key : IdempotencyKey) (moves : List (Move Operation Choice))
    (hm : Meets (proxy config).move (fun sys m => undisturbed config key sys m = true)
      ⟨.init registry clock, []⟩ moves) :
    ExecutedOnce key ((proxy config).run ⟨.init registry clock, []⟩ moves) := by
  let inv (sys : System ProxyState Frame) : Prop := Once key sys.shared sys.calls
  have hi : inv ⟨.init registry clock, []⟩ := .init key registry clock
  have h : inv ((proxy config).run ⟨.init registry clock, []⟩ moves) := by
    refine Calls.run_invariant_of_meets ?_ ?_ hi hm
    · intro sys operation h _
      exact h.start operation
    · intro sys t choice f h hok hc
      simp only [undisturbed, hc, Bool.and_eq_true] at hok
      exact (h.elapse choice.elapsed).step hc hok.1 hok.2
  refine ⟨?_, ?_, ?_⟩
  · calc
      _ ≤ _ := h.log
      _ ≤ _ := countP_mono_left fun f _ => reserved_of_begun
      _ ≤ 1 := h.one
  · exact (countP_mono_left fun f _ => reserved_of_executed).trans h.one
  · intro call answer hme hk
    rcases h.held _ hme hk with hca | hd | ⟨response, ha, _, hl⟩
    · exact .inl hca
    · exact .inr (.inl hd)
    · exact .inr (.inr ⟨response, ha, hl⟩)

/-! ## Two executions -/

def openProxy : ProxyConfig where
  registry := openConfig
  visibility _ := true
  validateInput _ _ := .ok ()
  resolveTimeout _ _ := .ok 30
  fingerprintRequest params _ := params.length
  validateResult _ _ := .ok ()

def refresh : SurfaceInvokeRequest where
  tenantId := 1
  surfaceId := "tools.dashboard"
  interactionId := "refresh"
  method := some .post
  idempotencyKey := "key-1"
  targetProviderId := none
  callerOrigin := .userSession 5 "session-1"
  params := "all"
  encryptedSensitiveParams := none

def refreshKey : IdempotencyKey := ⟨1, "tools.dashboard", "refresh", "user:5:session-1", "key-1"⟩

def turns (t n : Nat) : List (Move Operation Choice) := List.replicate n (.run t {})

def refreshed (requestId : Uuid) : SurfaceActionResponse := ⟨requestId, true, some "done", none⟩

/-- Two calls look into the cache.  The first one reserves the key and sends its request; when its
response has come, the second one reserves the key and sends its request. -/
def overtaken : List (Move Operation Choice) :=
  [[.start (.invoke refresh none), .start (.invoke refresh none)], turns 0 3, turns 1 3, turns 0 2,
    [.start (.complete 0 (refreshed 0))], turns 2 1, turns 1 2,
    [.start (.complete 1 (refreshed 1))], turns 3 1, turns 0 3, turns 1 3].flatten

/-- Two calls with one key and one fingerprint are both executed. -/
theorem executed_twice :
    let sys := (proxy openProxy).run ⟨.init (registryAfter openConfig oneScope) 0, []⟩ overtaken
    sys.shared.executions.map
        (fun execution => (execution.requestId, execution.call.key,
          execution.call.requestFingerprint)) = [(0, refreshKey, 3), (1, refreshKey, 3)] ∧
      sys.calls.countP (·.executed refreshKey) = 2 := by
  decide +kernel

/-- The second call comes while the key is reserved, the third one when the response is cached. -/
def inTurn : List (Move Operation Choice) :=
  [[.start (.invoke refresh none), .start (.invoke refresh none)], turns 0 5, turns 1 4,
    [.start (.complete 0 (refreshed 0))], turns 2 1, turns 0 3,
    [.start (.invoke refresh none)], turns 3 3].flatten

theorem executed_once_inTurn :
    ((proxy openProxy).run ⟨.init (registryAfter openConfig oneScope) 0, []⟩
      inTurn).shared.executions.length = 1 ∧
    ExecutedOnce refreshKey
      ((proxy openProxy).run ⟨.init (registryAfter openConfig oneScope) 0, []⟩ inTurn) :=
  ⟨by decide +kernel, executed_once_per_key openProxy _ 0 refreshKey inTurn (by decide +kernel)⟩

end Uptrakit.Surfaces
