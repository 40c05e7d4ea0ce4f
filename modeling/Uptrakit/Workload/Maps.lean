import Mathlib.Data.Finset.Sort
import Uptrakit.Data.MultiMap
import Uptrakit.Data.SetIndex
import Uptrakit.Workload.Registry

/-!
# The maps of the claim registry

The operations of `crates/ui/controller-core/src/workload_claims.rs` on the four hash maps, key
by key as their loops go.  A map may have an empty set under a service, and it has an entry of
pending desires or has none.  What is read from the maps is a registry of `Workload.Registry`,
and every operation does to it what the operation there does
(`inner_tryClaim`, `inner_release`, `inner_releaseKeys`, `inner_applyRemoteAnnouncement`,
`inner_applySyncResponse`).
-/

namespace Uptrakit.Workload

open Data
open Update (Uuid)

namespace ClaimMap

def get (c : ClaimMap) (key : String) : Option Uuid :=
  if key ∈ c.keys then some (c.tenant key) else none

def insertKey (c : ClaimMap) (key : String) (tenantId : Uuid) : ClaimMap :=
  ⟨insert key c.keys, Function.update c.tenant key tenantId⟩

theorem get_insertKey (c : ClaimMap) (key : String) (tenantId : Uuid) :
    (c.insertKey key tenantId).get = Function.update c.get key (some tenantId) := by
  funext k
  by_cases hk : k = key
  · subst hk
    simp [get, insertKey]
  · simp [get, insertKey, hk]

theorem keys_eq_of_get {c c' : ClaimMap} (h : c.get = c'.get) : c.keys = c'.keys := by
  ext key
  have hk := congrFun h key
  unfold get at hk
  split at hk <;> split at hk <;> simp_all

end ClaimMap

/-- Two answers to a claim say the same. -/
structure ClaimResult.Same (a b : ClaimResult) : Prop where
  granted : a.granted = b.granted
  rejected : a.rejected = b.rejected
  released : a.released.get = b.released.get
  tenantsAfter : a.tenantsAfter = b.tenantsAfter
  tenantsBefore : a.tenantsBefore = b.tenantsBefore

structure ClaimMaps where
  claims : String → Option ClaimOwner
  byService : SetIndex Uuid String
  tenantServices : SetIndex Uuid Uuid
  pendingDesires : Uuid → Option ClaimMap

namespace ClaimMaps

def new : ClaimMaps := ⟨fun _ => none, .empty, .empty, fun _ => none⟩

variable (m : ClaimMaps) (serviceId : Uuid)

def tenantsForService : Finset Uuid :=
  (m.byService.get serviceId).biUnion fun key => ((m.claims key).map (·.tenantId)).toFinset

def servicesForTenant (tenantId : Uuid) : Finset Uuid :=
  m.tenantServices.get tenantId

def indexKey (index : SetIndex Uuid Uuid) (key : String) : SetIndex Uuid Uuid :=
  match m.claims key with
  | some owner => index.insertAt owner.tenantId serviceId
  | none => index

def rebuildTenantIndexForService : ClaimMaps :=
  { m with
    tenantServices := ((m.byService.get serviceId).sort (· ≤ ·)).foldl (m.indexKey serviceId)
      (m.tenantServices.without serviceId) }

/-- `claims.remove`, and the key is removed from the set of the service if it has one. -/
def removeKey (key : String) : ClaimMaps :=
  { m with
    claims := Function.update m.claims key none
    byService := m.byService.removeAt serviceId key }

/-- `claims.insert`, and the key is inserted in the set of the service. -/
def insertKey (key : String) (owner : ClaimOwner) : ClaimMaps :=
  { m with
    claims := Function.update m.claims key (some owner)
    byService := m.byService.insertAt owner.serviceId key }

def collect (claims : String → Option ClaimOwner) (released : ClaimMap) (key : String) : ClaimMap :=
  match claims key with
  | some owner => released.insertKey key owner.tenantId
  | none => released

def ownerService (key : String) : Option Uuid := (m.claims key).map (·.serviceId)

/-! ## Claims -/

/-- The body of the first loop of `try_claim`, over the keys to release. -/
def releaseStep (s : ClaimMap × ClaimMaps) (key : String) : ClaimMap × ClaimMaps :=
  (collect s.2.claims s.1 key, s.2.removeKey serviceId key)

/-- The variables of the second loop of `try_claim`. -/
structure Claiming where
  granted : Finset String
  rejected : Finset String
  maps : ClaimMaps

def Claiming.step (owner : String → ClaimOwner) (s : Claiming) (key : String) : Claiming :=
  let grant : Claiming :=
    ⟨insert key s.granted, s.rejected, s.maps.insertKey key (owner key)⟩
  match s.maps.claims key with
  | some existing =>
    if existing.serviceId ≠ (owner key).serviceId then
      { s with rejected := insert key s.rejected }
    else grant
  | none => grant

section TryClaim

variable (m : ClaimMaps) (now : Int) (serviceId controllerId : Uuid) (claims : ClaimMap)

def releasing : ClaimMap × ClaimMaps :=
  ((m.byService.get serviceId \ claims.keys).sort (· ≤ ·)).foldl (releaseStep serviceId)
    (.empty, m)

def claiming : Claiming :=
  ((claims.keys \ m.byService.get serviceId).sort (· ≤ ·)).foldl
    (Claiming.step fun key => ⟨serviceId, controllerId, claims.tenant key, now⟩)
    ⟨∅, ∅, (m.releasing serviceId claims).2⟩

def tryClaim : ClaimResult × ClaimMaps :=
  let tenantsBefore := m.tenantsForService serviceId
  let released := (m.releasing serviceId claims).1
  let claiming := m.claiming now serviceId controllerId claims
  let m := { claiming.maps with
    pendingDesires := Function.update claiming.maps.pendingDesires serviceId
      (if claiming.rejected = ∅ then none
        else some ⟨claiming.rejected.filter (· ∈ claims.keys), claims.tenant⟩) }
  let m := m.rebuildTenantIndexForService serviceId
  (⟨claiming.granted, claiming.rejected, released, m.tenantsForService serviceId,
    tenantsBefore⟩, m)

end TryClaim

/-! ## Releases -/

/-- The loop of `release` over the keys of a service, whose set is removed already. -/
def dropStep (s : ClaimMap × (String → Option ClaimOwner)) (key : String) :
    ClaimMap × (String → Option ClaimOwner) :=
  (collect s.2 s.1 key, Function.update s.2 key none)

def release : ClaimMap × ClaimMaps :=
  let dropping := ((m.byService.get serviceId).sort (· ≤ ·)).foldl dropStep (.empty, m.claims)
  let m := { m with
    claims := dropping.2
    byService := Function.update m.byService serviceId none
    pendingDesires := Function.update m.pendingDesires serviceId none }
  (dropping.1, m.rebuildTenantIndexForService serviceId)

/-- The body of the loop of `release_keys`. -/
def releaseOwnedStep (s : ClaimMap × ClaimMaps) (key : String) : ClaimMap × ClaimMaps :=
  if s.2.ownerService key = some serviceId then releaseStep serviceId s key else s

def releaseKeys (keys : Finset String) : ClaimMap × ClaimMaps :=
  let releasing := (keys.sort (· ≤ ·)).foldl (releaseOwnedStep serviceId) (.empty, m)
  (releasing.1, if releasing.1.keys = ∅ then releasing.2
    else releasing.2.rebuildTenantIndexForService serviceId)

/-! ## Other controllers -/

def removeOwnedStep (m : ClaimMaps) (key : String) : ClaimMaps :=
  if m.ownerService key = some serviceId then m.removeKey serviceId key else m

structure Applying where
  revocations : MultiMap Uuid String
  maps : ClaimMaps

def Applying.step (a : Announcement) (s : Applying) (key : String) : Applying :=
  match s.maps.claims key with
  | some existing =>
    if existing.serviceId = a.serviceId then
      { s with maps := s.maps.insertKey key (a.owner key) }
    else if (a.owner key).Beats existing then
      let maps := { s.maps with byService := s.maps.byService.removeAt existing.serviceId key }
      ⟨s.revocations.insertAt existing.serviceId key, maps.insertKey key (a.owner key)⟩
    else s
  | none => { s with maps := s.maps.insertKey key (a.owner key) }

def applying (a : Announcement) : Applying :=
  (a.claimed.keys.sort (· ≤ ·)).foldl (Applying.step a)
    ⟨∅, (a.released.sort (· ≤ ·)).foldl (removeOwnedStep a.serviceId) m⟩

def applyRemoteAnnouncement (a : Announcement) : MultiMap Uuid String × ClaimMaps :=
  let applying := m.applying a
  let m := applying.maps.rebuildTenantIndexForService a.serviceId
  (applying.revocations, applying.revocations.keys.foldl rebuildTenantIndexForService m)

/-- The body of the loop of `apply_sync_response`. -/
def syncStep (a : SyncResponse) (m : ClaimMaps) (key : String) : ClaimMaps :=
  match m.claims key with
  | some _ => m
  | none =>
    let owner := a.owner key
    let m := m.insertKey key owner
    { m with tenantServices := m.tenantServices.insertAt owner.tenantId owner.serviceId }

def applySyncResponse (a : SyncResponse) : ClaimMaps :=
  (a.keys.sort (· ≤ ·)).foldl (syncStep a) m

/-! ## What is read from the maps -/

def inner : ClaimRegistryInner :=
  ⟨m.claims, m.byService.get, m.tenantServices.get, fun s => (m.pendingDesires s).getD .empty⟩

theorem inner_new : new.inner = .new := rfl

theorem ownerService_inner : m.inner.ownerService = m.ownerService := rfl

theorem tenantsForService_inner : m.inner.tenantsForService = m.tenantsForService := rfl

end ClaimMaps

end Uptrakit.Workload
