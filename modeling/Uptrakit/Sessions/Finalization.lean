import Uptrakit.Concurrent.Calls
import Uptrakit.Surfaces.Ownership
import Uptrakit.Workload.Regrant

/-!
# The end of a session

A service registers its connection, and its messages register surfaces and claim workload keys
(`crates/ui/web-api/src/routes/service_ws/handler/session_authenticated.rs`).  When the session
ends, `finalize_authenticated_session` asks once whether its connection is still the current one;
then it releases the claims and unregisters the surfaces of the service, with awaits in between.
Only the last step, which removes the connection, asks again.  The registries of the surfaces and
of the claims are keyed by the service.  So a service that has connected again loses what it has
registered and claimed through the newer session (`newer_session_destroyed`), unless it does so
after the older sessions have come to the end of their finalization
(`finalization_spares_newer_sessions`).

The handlers of the surfaces and of the claims are those of `Uptrakit.Surfaces` and
`Uptrakit.Workload`, cut into the sections between two awaits.  Audit entries, announcements to
other controllers, events and requests in flight change none of the registries and are left out.
-/

namespace Uptrakit.Sessions

open Concurrent List Function Nat
open Surfaces (SurfaceRegistration SurfaceRegistryConfig SurfaceRegistryInner)
open Update (Uuid)
open Workload (Announcement ClaimMap WorkloadClaimRegistry)

/-! ## State -/

/-- `AuthenticatedSessionState`.  Connection ids are given in the order of registration. -/
structure Session where
  serviceId : Uuid
  connectionId : Uuid
  hasWorkloadClaims : Bool
  serviceAppName : Option String
  serviceTenantId : Option Uuid

inductive Item
  | surfaces
  | claims (keys : Finset String)

/-- The finalization of a session removes what a service has.  The maker is the connection
through which the service had registered or claimed it. -/
structure Removal where
  session : Session
  serviceId : Uuid
  item : Item
  maker : Option Uuid

/-- What is removed was made through a newer session of the service. -/
def Removal.destroys (removal : Removal) : Bool :=
  removal.serviceId == removal.session.serviceId &&
    removal.maker.any fun connectionId => decide (removal.session.connectionId < connectionId)

/-- The registries of a controller.  The makers and the removals are kept for the statements; no
step reads them.  A claim replaces all claims of its service, so what a service holds is from the
last one. -/
structure Shared where
  connections : Uuid → Option Uuid
  nextConnectionId : Uuid
  surfaces : SurfaceRegistryInner
  claims : WorkloadClaimRegistry
  surfaceMaker : Uuid → Option Uuid
  claimMaker : Uuid → Option Uuid
  removals : List Removal

def Shared.init (surfaces : SurfaceRegistryInner) (claims : WorkloadClaimRegistry) : Shared where
  connections _ := none
  nextConnectionId := 0
  surfaces := surfaces
  claims := claims
  surfaceMaker _ := none
  claimMaker _ := none
  removals := []

inductive AuthenticatedSessionOwnership
  | current
  | replaced
  | removed
  deriving DecidableEq

def authenticatedSessionOwnership (s : Shared) (session : Session) :
    AuthenticatedSessionOwnership :=
  match s.connections session.serviceId with
  | some id => if id = session.connectionId then .current else .replaced
  | none => .removed

/-! ## Steps -/

inductive Message
  | surfaceRegistration (registration : SurfaceRegistration)
  | workloadClaim (claims : ClaimMap)
  | workloadRelease (keys : Finset String)

inductive Regranting
  | find (keys : Finset String)
  | grant (desires : List (Uuid × ClaimMap))

inductive Operation
  | connect (serviceId : Uuid) (serviceAppName : Option String) (serviceTenantId : Option Uuid)
      (hasWorkloadClaims : Bool)
  | forceDisconnect (serviceId : Uuid)
  /-- Embedded services, plugins and built-in surfaces. -/
  | registry (call : Surfaces.Call)
  /-- An announcement of another controller. -/
  | announcement (a : Announcement)

inductive Frame
  | connect (serviceId : Uuid) (serviceAppName : Option String) (serviceTenantId : Option Uuid)
      (hasWorkloadClaims : Bool)
  | active (session : Session) (processor : Option Regranting)
  /-- The processor is cancelled, but it may not have ended yet. -/
  | draining (session : Session) (ownership : AuthenticatedSessionOwnership)
      (processor : Option Regranting)
  | release (session : Session)
  | regrant (session : Session) (regranting : Regranting)
  | unregisterSurfaces (session : Session) (replaced : Bool)
  | unregisterConnection (session : Session)
  | forceDisconnect (serviceId : Uuid)
  | registry (call : Surfaces.Call)
  | announcement (a : Announcement)
  | announcementRegrant (regranting : Regranting)
  | done

inductive Turn
  | message (message : Message)
  | proceed
  /-- The loop of the session ends, or its processor. -/
  | stop

structure Choice where
  turn : Turn := .proceed
  now : Int := 0
  /-- The order in which the hash map of the desires is walked. -/
  order : List Uuid := []

def Operation.enter : Operation → Frame
  | connect serviceId serviceAppName serviceTenantId hasWorkloadClaims =>
    .connect serviceId serviceAppName serviceTenantId hasWorkloadClaims
  | forceDisconnect serviceId => .forceDisconnect serviceId
  | registry call => .registry call
  | announcement a => .announcement a

section Steps

variable (config : SurfaceRegistryConfig) (controllerId : Uuid)

def Shared.remove (s : Shared) (finalized : Option Session) (serviceId : Uuid) (item : Item)
    (maker : Option Uuid) : Shared :=
  match finalized with
  | none => s
  | some session => { s with removals := s.removals ++ [⟨session, serviceId, item, maker⟩] }

/-- One section of the loop over `find_pending_desires_for_keys`. -/
def regrantStep (choice : Choice) (s : Shared) (finalized : Option Session) :
    Regranting → Shared × Option Regranting
  | .find keys =>
    let services := choice.order.filter fun serviceId => s.claims.Waits keys serviceId
    (s, some (.grant (services.map fun serviceId =>
      (serviceId, s.claims.inner.findPendingDesiresForKeys keys serviceId))))
  | .grant [] => (s, none)
  | .grant ((serviceId, desired) :: rest) =>
    let lost := s.claims.inner.toRelease serviceId desired
    let s' := { s with claims := (s.claims.tryClaim choice.now serviceId controllerId desired).2 }
    (if lost = ∅ then s'
      else s'.remove finalized serviceId (.claims lost) (s.claimMaker serviceId),
      some (.grant rest))

def handle (choice : Choice) (s : Shared) (session : Session) :
    Message → Shared × Option Regranting
  | .surfaceRegistration registration =>
    let result := Surfaces.registerService config session.serviceId
      (session.serviceAppName.getD "unknown") session.serviceTenantId registration s.surfaces
    ({ s with
        surfaces := result.2
        surfaceMaker :=
          if result.1.isOk then
            Function.update s.surfaceMaker session.serviceId (some session.connectionId)
          else s.surfaceMaker },
      none)
  | .workloadClaim claims =>
    ({ s with
        claims := (s.claims.tryClaim choice.now session.serviceId controllerId claims).2
        claimMaker := Function.update s.claimMaker session.serviceId
          (some session.connectionId) },
      none)
  | .workloadRelease keys =>
    let freed := s.claims.releaseKeys session.serviceId keys
    ({ s with claims := freed.2 },
      if freed.1.keys = ∅ then none else some (.find freed.1.keys))

def processorStep (choice : Choice) (s : Shared) (session : Session) :
    Option Regranting → Shared × Option Regranting
  | none =>
    match choice.turn with
    | .message message => handle config controllerId choice s session message
    | _ => (s, none)
  | some regranting => regrantStep controllerId choice s none regranting

def afterProcessor (session : Session) (ownership : AuthenticatedSessionOwnership) : Frame :=
  if ownership = .replaced then .unregisterSurfaces session true
  else if session.hasWorkloadClaims then .release session
  else .unregisterSurfaces session false

/-- `release_all_claims_on_disconnect`, up to the announcement. -/
def releaseStep (s : Shared) (session : Session) : Shared × Frame :=
  let freed := s.claims.release session.serviceId
  let s' := { s with
    claims := freed.2
    claimMaker := Function.update s.claimMaker session.serviceId none }
  if freed.1.keys = ∅ then (s', .unregisterSurfaces session false)
  else
    (s'.remove (some session) session.serviceId (.claims freed.1.keys)
        (s.claimMaker session.serviceId),
      .regrant session (.find freed.1.keys))

def unregisterSurfacesStep (s : Shared) (session : Session) : Shared :=
  let s' := { s with
    surfaces := Surfaces.unregisterService session.serviceId s.surfaces
    surfaceMaker := Function.update s.surfaceMaker session.serviceId none }
  if (s.surfaces.serviceToProvider session.serviceId).isSome then
    s'.remove (some session) session.serviceId .surfaces (s.surfaceMaker session.serviceId)
  else s'

/-- The maker of the surfaces of a service after a call that is not from a session. -/
def registryMaker (s : Shared) : Surfaces.Call → Uuid → Option Uuid
  | .registerService serviceId _ _ _ | .unregisterService serviceId =>
    Function.update s.surfaceMaker serviceId none
  | _ => s.surfaceMaker

def step (choice : Choice) (s : Shared) : Frame → Shared × Frame
  | .connect serviceId serviceAppName serviceTenantId hasWorkloadClaims =>
    let connectionId := s.nextConnectionId
    ({ s with
        connections := Function.update s.connections serviceId (some connectionId)
        nextConnectionId := connectionId + 1 },
      .active ⟨serviceId, connectionId, hasWorkloadClaims, serviceAppName, serviceTenantId⟩ none)
  | .active session processor =>
    match choice.turn with
    | .stop => (s, .draining session (authenticatedSessionOwnership s session) processor)
    | _ =>
      let next := processorStep config controllerId choice s session processor
      (next.1, .active session next.2)
  | .draining session ownership processor =>
    match choice.turn with
    | .stop => (s, afterProcessor session ownership)
    | _ =>
      let next := processorStep config controllerId choice s session processor
      (next.1, .draining session ownership next.2)
  | .release session => releaseStep s session
  | .regrant session regranting =>
    let next := regrantStep controllerId choice s (some session) regranting
    (next.1, match next.2 with
      | some regranting => .regrant session regranting
      | none => .unregisterSurfaces session false)
  | .unregisterSurfaces session replaced =>
    (unregisterSurfacesStep s session,
      if replaced then .done else .unregisterConnection session)
  | .unregisterConnection session =>
    -- `unregister_current`
    (if s.connections session.serviceId = some session.connectionId then
        { s with connections := Function.update s.connections session.serviceId none }
      else s, .done)
  | .forceDisconnect serviceId =>
    ({ s with connections := Function.update s.connections serviceId none }, .done)
  | .registry call =>
    let result := call.exec config s.surfaces
    ({ s with
        surfaces := result.2
        surfaceMaker := if result.1.isOk then registryMaker s call else s.surfaceMaker },
      .done)
  | .announcement a =>
    ({ s with claims := (s.claims.applyRemoteAnnouncement a).2 },
      if a.released = ∅ then .done else .announcementRegrant (.find a.released))
  | .announcementRegrant regranting =>
    let next := regrantStep controllerId choice s none regranting
    (next.1, match next.2 with
      | some regranting => .announcementRegrant regranting
      | none => .done)
  | .done => (s, .done)

def sessions : Calls Operation Choice Shared Frame where
  enter := Operation.enter
  step := step config controllerId

end Steps

/-! ## Sessions that are not over -/

def Frame.unregisters : Frame → Option Session
  | active session _ | draining session _ _ | release session | regrant session _
  | unregisterSurfaces session _ => some session
  | _ => none

/-- The session that still has to release the claims of its service, or to give them to others. -/
def Frame.releases : Frame → Option Session
  | active session _ => if session.hasWorkloadClaims then some session else none
  | draining session ownership _ =>
    if session.hasWorkloadClaims && decide (ownership ≠ .replaced) then some session else none
  | release session | regrant session _ => some session
  | _ => none

def Frame.registers (choice : Choice) : Frame → Option Session
  | active session none | draining session _ none =>
    match choice.turn with
    | .message (.surfaceRegistration _) => some session
    | _ => none
  | _ => none

def Frame.claims (choice : Choice) : Frame → Option Session
  | active session none | draining session _ none =>
    match choice.turn with
    | .message (.workloadClaim _) => some session
    | _ => none
  | _ => none

/-- The other session is not an older one of the same service. -/
def Session.spares (session other : Session) : Bool :=
  other.serviceId != session.serviceId || decide (session.connectionId ≤ other.connectionId)

/-- The condition on a move: a session registers surfaces when no older session of its service
still has to unregister them, and claims keys when none still has to release them. -/
def fenced (sys : System Shared Frame) : Move Operation Choice → Bool
  | .start _ => true
  | .run t choice =>
    (sys.calls[t]?).all fun f =>
      (f.registers choice).all (fun session =>
        sys.calls.all fun g => g.unregisters.all session.spares) &&
      (f.claims choice).all fun session =>
        sys.calls.all fun g => g.releases.all session.spares

/-! ## What a step does -/

variable {config : SurfaceRegistryConfig} {controllerId : Uuid} {s : Shared} {calls : List Frame}
  {choice : Choice}

/-- A step makes things through the session of its message only, and removes what the service has
in the name of a session that has to. -/
structure Effect (choice : Choice) (s : Shared) (f : Frame) (s' : Shared) : Prop where
  next : s.nextConnectionId ≤ s'.nextConnectionId
  surfaceMaker : ∀ serviceId c, s'.surfaceMaker serviceId = some c →
    s.surfaceMaker serviceId = some c ∨
      ∃ session, f.registers choice = some session ∧ session.serviceId = serviceId ∧
        session.connectionId = c
  claimMaker : ∀ serviceId c, s'.claimMaker serviceId = some c →
    s.claimMaker serviceId = some c ∨
      ∃ session, f.claims choice = some session ∧ session.serviceId = serviceId ∧
        session.connectionId = c
  removals : ∀ removal ∈ s'.removals, removal ∈ s.removals ∨
    f.unregisters = some removal.session ∧
        removal.maker = s.surfaceMaker removal.serviceId ∨
      f.releases = some removal.session ∧ removal.maker = s.claimMaker removal.serviceId

variable {f : Frame} {maker : Uuid → Option Uuid} {serviceId other next : Uuid} {session : Session}
  {pending : Frame → Option Session}

/-- A step that touches neither makers nor removals. -/
theorem Effect.of_eq {s' : Shared} (hn : s.nextConnectionId ≤ s'.nextConnectionId)
    (hs : s'.surfaceMaker = s.surfaceMaker) (hc : s'.claimMaker = s.claimMaker)
    (hr : s'.removals = s.removals) : Effect choice s f s' := by
  refine ⟨hn, fun serviceId c h => ?_, fun serviceId c h => ?_, fun removal h => ?_⟩
  · rw [hs] at h
    exact .inl h
  · rw [hc] at h
    exact .inl h
  · rw [hr] at h
    exact .inl h

theorem some_of_update_none {c} (h : update maker serviceId none other = some c) :
    maker other = some c := by
  by_cases ho : other = serviceId
  · subst ho
    rw [update_self] at h
    cases h
  · rwa [update_of_ne ho] at h

theorem of_update_some {connectionId c}
    (h : update maker serviceId (some connectionId) other = some c) :
    maker other = some c ∨ serviceId = other ∧ connectionId = c := by
  by_cases ho : other = serviceId
  · subst ho
    rw [update_self] at h
    cases h
    exact .inr ⟨rfl, rfl⟩
  · rw [update_of_ne ho] at h
    exact .inl h

theorem effect_regrantStep (finalized)
    (hf : ∀ session, finalized = some session → f.releases = some session) (regranting) :
    Effect choice s f (regrantStep controllerId choice s finalized regranting).1 := by
  cases regranting with
  | find => exact .of_eq le_rfl rfl rfl rfl
  | grant desires =>
    cases desires with
    | nil => exact .of_eq le_rfl rfl rfl rfl
    | cons =>
      simp only [regrantStep]
      split
      · exact .of_eq le_rfl rfl rfl rfl
      · cases finalized with
        | none => exact .of_eq le_rfl rfl rfl rfl
        | some session =>
          refine ⟨le_rfl, fun _ _ => .inl, fun _ _ => .inl, fun removal h => ?_⟩
          rcases mem_append.1 h with h | h
          · exact .inl h
          · cases mem_singleton.1 h
            exact .inr (.inr ⟨hf session rfl, rfl⟩)

theorem effect_handle {message}
    (hr : ∀ registration, message = .surfaceRegistration registration →
      f.registers choice = some session)
    (hcl : ∀ claims, message = .workloadClaim claims → f.claims choice = some session) :
    Effect choice s f (handle config controllerId choice s session message).1 := by
  cases message with
  | surfaceRegistration registration =>
    refine ⟨le_rfl, fun serviceId c h => ?_, fun _ _ => .inl, fun _ => .inl⟩
    simp only [handle] at h
    split at h
    · rcases of_update_some h with h | ⟨hs, hc⟩
      · exact .inl h
      · exact .inr ⟨session, hr registration rfl, hs, hc⟩
    · exact .inl h
  | workloadClaim claims =>
    refine ⟨le_rfl, fun _ _ => .inl, fun serviceId c h => ?_, fun _ => .inl⟩
    rcases of_update_some h with h | ⟨hs, hc⟩
    · exact .inl h
    · exact .inr ⟨session, hcl claims rfl, hs, hc⟩
  | workloadRelease => exact .of_eq le_rfl rfl rfl rfl

theorem effect_processorStep {processor}
    (hf : f = .active session processor ∨ ∃ ownership, f = .draining session ownership processor) :
    Effect choice s f (processorStep config controllerId choice s session processor).1 := by
  cases processor with
  | some regranting => exact effect_regrantStep none (fun _ h => nomatch h) regranting
  | none =>
    simp only [processorStep]
    split
    · next message ht =>
        refine effect_handle ?_ ?_
        · rintro registration rfl
          rcases hf with rfl | ⟨ownership, rfl⟩ <;> simp only [Frame.registers, ht]
        · rintro claims rfl
          rcases hf with rfl | ⟨_, rfl⟩ <;> simp only [Frame.claims, ht]
    · exact .of_eq le_rfl rfl rfl rfl

theorem effect_releaseStep (session) :
    Effect choice s (.release session) (releaseStep s session).1 := by
  unfold releaseStep
  dsimp only
  split
  · exact ⟨le_rfl, fun _ _ => .inl, fun _ _ h => .inl (some_of_update_none h), fun _ => .inl⟩
  · refine ⟨le_rfl, fun _ _ => .inl, fun _ _ h => .inl (some_of_update_none h), fun removal h => ?_⟩
    rcases mem_append.1 h with h | h
    · exact .inl h
    · cases mem_singleton.1 h
      exact .inr (.inr ⟨rfl, rfl⟩)

theorem effect_unregisterSurfacesStep (session replaced) :
    Effect choice s (.unregisterSurfaces session replaced) (unregisterSurfacesStep s session) := by
  unfold unregisterSurfacesStep
  split
  · refine ⟨le_rfl, fun _ _ h => .inl (some_of_update_none h), fun _ _ => .inl, fun removal h => ?_⟩
    rcases mem_append.1 h with h | h
    · exact .inl h
    · cases mem_singleton.1 h
      exact .inr (.inl ⟨rfl, rfl⟩)
  · exact ⟨le_rfl, fun _ _ h => .inl (some_of_update_none h), fun _ _ => .inl, fun _ => .inl⟩

theorem effect_step (f) : Effect choice s f (step config controllerId choice s f).1 := by
  fun_cases step config controllerId choice s f with
  | case1 => exact .of_eq (le_succ _) rfl rfl rfl
  | case3 => exact effect_processorStep (.inl rfl)
  | case5 _ ownership => exact effect_processorStep (.inr ⟨ownership, rfl⟩)
  | case6 session => exact effect_releaseStep session
  | case7 session regranting =>
    refine effect_regrantStep (some session) (fun other h => ?_) regranting
    cases h
    rfl
  | case8 session replaced => exact effect_unregisterSurfacesStep session replaced
  | case9 => split <;> exact .of_eq le_rfl rfl rfl rfl
  | case11 call =>
    refine ⟨le_rfl, fun serviceId c h => .inl ?_, fun _ _ => .inl, fun _ => .inl⟩
    split at h
    · cases call with
      | registerService | unregisterService => exact some_of_update_none h
      | _ => exact h
    · exact h
  | case13 regranting => exact effect_regrantStep none (fun _ h => nomatch h) regranting
  | _ => exact .of_eq le_rfl rfl rfl rfl

/-- A session that has to clean up is the one of the frame, or has just connected. -/
def Inherits (session : Option Session) (s s' : Shared) (session' : Option Session) : Prop :=
  ∀ found, session' = some found → session = some found ∨
    found.connectionId = s.nextConnectionId ∧ s.nextConnectionId < s'.nextConnectionId

theorem inherits_step (f : Frame) :
    Inherits f.unregisters s (step config controllerId choice s f).1
        (step config controllerId choice s f).2.unregisters ∧
      Inherits f.releases s (step config controllerId choice s f).1
        (step config controllerId choice s f).2.releases := by
  fun_cases step config controllerId choice s f with
  | case1 =>
    refine ⟨?_, fun found h => ?_⟩
    · rintro found ⟨⟩
      exact .inr ⟨rfl, lt_succ_self _⟩
    · obtain ⟨-, ⟨⟩⟩ := Option.ite_none_right_eq_some.1 h
      exact .inr ⟨rfl, lt_succ_self _⟩
  | case2 =>
    refine ⟨fun _ => .inl, fun found h => .inl ?_⟩
    obtain ⟨hc, ⟨⟩⟩ := Option.ite_none_right_eq_some.1 h
    exact if_pos (Bool.and_eq_true_iff.1 hc).1
  | case3 | case5 => exact ⟨fun _ => .inl, fun _ => .inl⟩
  | case4 =>
    unfold afterProcessor
    split
    · exact ⟨fun _ => .inl, nofun⟩
    · split
      · refine ⟨fun _ => .inl, fun found h => .inl ?_⟩
        simpa [Frame.releases, *] using h
      · exact ⟨fun _ => .inl, nofun⟩
  | case6 =>
    unfold releaseStep
    dsimp only
    split
    · exact ⟨fun _ => .inl, nofun⟩
    · exact ⟨fun _ => .inl, fun _ => .inl⟩
  | case7 =>
    split
    · exact ⟨fun _ => .inl, fun _ => .inl⟩
    · exact ⟨fun _ => .inl, nofun⟩
  | case8 | case12 | case13 => split <;> exact ⟨nofun, nofun⟩
  | _ => exact ⟨nofun, nofun⟩

theorem unregisters_of_registers (h : f.registers choice = some session) :
    f.unregisters = some session := by
  revert h
  fun_cases f.registers choice with
  | case1 | case3 => exact id
  | _ => nofun

theorem unregisters_of_claims (h : f.claims choice = some session) :
    f.unregisters = some session := by
  revert h
  fun_cases f.claims choice with
  | case1 | case3 => exact id
  | _ => nofun

/-! ## Runs -/

/-- A session that still has to clean up after its service is not older than the session through
which the service has made what it has. -/
structure Ordered (maker : Uuid → Option Uuid) (next : Uuid) (pending : Frame → Option Session)
    (calls : List Frame) : Prop where
  lt_next : ∀ serviceId c, maker serviceId = some c → c < next
  le_session : ∀ f ∈ calls, ∀ session, pending f = some session →
    ∀ c, maker session.serviceId = some c → c ≤ session.connectionId

variable (h : Ordered maker next pending calls)

include h

theorem Ordered.start (hf : pending f = none) : Ordered maker next pending (calls ++ [f]) := by
  refine ⟨h.lt_next, forall_mem_append.2 ⟨h.le_session, ?_⟩⟩
  rw [forall_mem_singleton, hf]
  rintro session ⟨⟩

/-- A step that makes things only through a session that the others spare. -/
theorem Ordered.step {maker' : Uuid → Option Uuid} {next' : Uuid} {t : Nat} {f' : Frame}
    (hca : calls[t]? = some f) (hn : next ≤ next') {made : Option Session}
    (hm : ∀ serviceId c, maker' serviceId = some c → maker serviceId = some c ∨
      ∃ session, made = some session ∧ session.serviceId = serviceId ∧ session.connectionId = c)
    (hma : ∀ session, made = some session → session.connectionId < next)
    (hok : (made.all fun session => calls.all fun g => (pending g).all session.spares) = true)
    (hf' : ∀ found, pending f' = some found → pending f = some found ∨
      found.connectionId = next ∧ next < next') :
    Ordered maker' next' pending (calls.set t f') := by
  have hlt : ∀ serviceId c, maker' serviceId = some c → c < next := by
    intro serviceId c hc
    rcases hm serviceId c hc with hb | ⟨session, hs, _, rfl⟩
    · exact h.lt_next serviceId c hb
    · exact hma session hs
  -- The frames of before, with what is made now.
  have hle : ∀ g ∈ calls, ∀ session, pending g = some session →
      ∀ c, maker' session.serviceId = some c → c ≤ session.connectionId := by
    intro g hg session hs c hc
    rcases hm _ c hc with hb | ⟨maker, hm, hse, rfl⟩
    · exact h.le_session g hg session hs c hb
    · rw [hm] at hok
      have hsp := all_eq_true.1 hok g hg
      rw [hs] at hsp
      simpa [Session.spares, hse] using hsp
  refine ⟨fun serviceId c hc => lt_of_lt_of_le (hlt serviceId c hc) hn, ?_⟩
  intro g hg session hs c hc
  rcases mem_or_eq_of_mem_set hg with hg | rfl
  · exact hle g hg session hs c hc
  · rcases hf' session hs with hb | ⟨hco, _⟩
    · exact hle f (mem_of_getElem? hca) session hb c hc
    · rw [hco]
      exact (hlt _ c hc).le

structure Fenced (s : Shared) (calls : List Frame) : Prop where
  sessions : ∀ f ∈ calls, ∀ session, f.unregisters = some session →
    session.connectionId < s.nextConnectionId
  surfaces : Ordered s.surfaceMaker s.nextConnectionId Frame.unregisters calls
  claims : Ordered s.claimMaker s.nextConnectionId Frame.releases calls
  spared : ∀ removal ∈ s.removals, removal.destroys = false

omit h in
theorem Fenced.init (surfaces claims) : Fenced (.init surfaces claims) [] where
  sessions := by rintro f ⟨⟩
  surfaces := ⟨by rintro serviceId c ⟨⟩, by rintro f ⟨⟩⟩
  claims := ⟨by rintro serviceId c ⟨⟩, by rintro f ⟨⟩⟩
  spared := by rintro removal ⟨⟩

omit h in
theorem Fenced.start (h : Fenced s calls) (operation : Operation) :
    Fenced s (calls ++ [operation.enter]) := by
  have hu : operation.enter.unregisters = none := by
    cases operation <;> rfl
  have hr : operation.enter.releases = none := by
    cases operation <;> rfl
  refine ⟨forall_mem_append.2 ⟨h.sessions, ?_⟩, h.surfaces.start hu, h.claims.start hr, h.spared⟩
  rw [forall_mem_singleton, hu]
  rintro session ⟨⟩

/-- What a session removes was not made through a newer one. -/
theorem destroys_eq_false (hf : f ∈ calls)
    {removal : Removal} (hse : pending f = some removal.session)
    (hm : removal.maker = maker removal.serviceId) : removal.destroys = false := by
  unfold Removal.destroys
  by_cases hs : removal.serviceId = removal.session.serviceId
  · rw [hm, hs]
    cases hc : maker removal.session.serviceId with
    | none => simp
    | some c =>
      have hle := h.le_session f hf removal.session hse c hc
      simpa using hle
  · simp [hs]

omit h

theorem Fenced.step {t : Nat} (h : Fenced s calls) (hca : calls[t]? = some f)
    (hr : ((f.registers choice).all fun session =>
      calls.all fun g => g.unregisters.all session.spares) = true)
    (hcl : ((f.claims choice).all fun session =>
      calls.all fun g => g.releases.all session.spares) = true) :
    Fenced (step config controllerId choice s f).1
      (calls.set t (step config controllerId choice s f).2) := by
  have hf : f ∈ calls := mem_of_getElem? hca
  have he : Effect choice s f (Sessions.step config controllerId choice s f).1 :=
    effect_step f
  refine ⟨?_, ?_, ?_, ?_⟩
  · intro g hg session hs
    rcases mem_or_eq_of_mem_set hg with hg | rfl
    · exact lt_of_lt_of_le (h.sessions g hg session hs) he.next
    · rcases (inherits_step f).1 session hs with hb | ⟨hc, hlt⟩
      · exact lt_of_lt_of_le (h.sessions f hf session hb) he.next
      · rw [hc]
        exact hlt
  · exact h.surfaces.step hca he.next he.surfaceMaker
      (fun session hma => h.sessions f hf session (unregisters_of_registers hma)) hr
      (inherits_step f).1
  · exact h.claims.step hca he.next he.claimMaker
      (fun session hma => h.sessions f hf session (unregisters_of_claims hma)) hcl
      (inherits_step f).2
  · intro removal hre
    rcases he.removals removal hre with
      hb | ⟨hs, hm⟩ | ⟨hs, hm⟩
    · exact h.spared removal hb
    · exact destroys_eq_false h.surfaces hf hs hm
    · exact destroys_eq_false h.claims hf hs hm

/-- No finalization has removed what was made through a newer session of its service. -/
def SparesNewer (sys : System Shared Frame) : Prop :=
  ∀ removal ∈ sys.shared.removals, removal.destroys = false

/-- In every run whose moves meet the condition, the newer sessions are spared. -/
theorem finalization_spares_newer_sessions (config : SurfaceRegistryConfig) (controllerId : Uuid)
    (surfaces : SurfaceRegistryInner) (claims : WorkloadClaimRegistry)
    (moves : List (Move Operation Choice))
    (hm : Meets (sessions config controllerId).move (fun sys m => fenced sys m = true)
      ⟨.init surfaces claims, []⟩ moves) :
    SparesNewer ((sessions config controllerId).run ⟨.init surfaces claims, []⟩ moves) := by
  let inv (sys : System Shared Frame) : Prop := Fenced sys.shared sys.calls
  have hi : inv ⟨.init surfaces claims, []⟩ := .init surfaces claims
  have hr : inv ((sessions config controllerId).run ⟨.init surfaces claims, []⟩ moves) := by
    refine Calls.run_invariant_of_meets ?_ ?_ hi hm
    · intro sys operation h _
      exact h.start operation
    · intro sys t choice f h hok hc
      simp only [fenced, hc, Option.all_some, Bool.and_eq_true] at hok
      exact h.step hc hok.1 hok.2
  exact hr.spared

/-! ## A service that connects again -/

def connectTools : Operation := .connect 7 (some "tools") (some 1) true

def turn (t : Nat) (turn : Turn) : Move Operation Choice := .run t { turn := turn }

def setUp (t : Nat) : List (Move Operation Choice) :=
  [turn t (.message (.workloadClaim (Workload.wanted {"a"}))),
    turn t (.message (.surfaceRegistration (Surfaces.serviceDashboard "service.tools")))]

/-- The finalization of a session that was the current one, from the end of its processor on. -/
def cleanup (t : Nat) : List (Move Operation Choice) :=
  turn t .stop :: List.replicate 5 (turn t .proceed)

def sessionsAfter (moves : List (Move Operation Choice)) : System Shared Frame :=
  (sessions Surfaces.openConfig 0).run
    ⟨.init (Surfaces.registryAfter Surfaces.openConfig []) .new, []⟩ moves

/-- The service has connected again after the first session has asked for its connection. -/
def reconnected : List (Move Operation Choice) :=
  [[.start connectTools, turn 0 .proceed], setUp 0, [turn 0 .stop],
    [.start connectTools, turn 1 .proceed], setUp 1, cleanup 0].flatten

/-- The service has connected again before the first session ends. -/
def replaced : List (Move Operation Choice) :=
  [[.start connectTools, turn 0 .proceed, .start connectTools, turn 1 .proceed], setUp 1,
    [turn 0 .stop, turn 0 .stop, turn 0 .proceed]].flatten

/-- The connection, the keys and the provider of the service, and for each removal by the end of
a session the connection of that session and the one through which it was made. -/
def Shared.summary (s : Shared) :
    (Option Uuid × Finset String × Option String) × List (Uuid × Option Uuid) :=
  ((s.connections 7, s.claims.inner.byService 7, s.surfaces.serviceToProvider 7),
    s.removals.map fun removal => (removal.session.connectionId, removal.maker))

/-- The connection of the newer session stays; its claims and its surfaces are removed by the end
of the older one, and its surfaces also if the older one knows that it is replaced. -/
theorem newer_session_destroyed :
    (sessionsAfter reconnected).shared.summary = ((some 1, ∅, none), [(0, some 1), (0, some 1)]) ∧
      (sessionsAfter replaced).shared.summary = ((some 1, {"a"}, none), [(0, some 1)]) := by
  decide +kernel

/-- The service registers and claims after the end of its first session. -/
def inOrder : List (Move Operation Choice) :=
  [[.start connectTools, turn 0 .proceed], setUp 0, [turn 0 .stop],
    [.start connectTools, turn 1 .proceed], cleanup 0, setUp 1].flatten

theorem finalization_spares_inOrder :
    (sessionsAfter inOrder).shared.summary =
        ((some 1, {"a"}, some "service.tools"), [(0, some 0), (0, some 0)]) ∧
      SparesNewer (sessionsAfter inOrder) :=
  ⟨by decide +kernel,
    finalization_spares_newer_sessions Surfaces.openConfig 0 _ _ inOrder (by decide +kernel)⟩

end Uptrakit.Sessions
