import Mathlib.Data.Finset.Option
import Uptrakit.Update.History

/-!
# Workload claims

A service claims configuration keys, each of which has one owner at a time.  Every
controller has a registry of the owners (`crates/ui/controller-core/src/workload_claims.rs`);
what one of them grants or releases is announced to the others.

The loops of the source go over sets of keys and treat every key by itself; here a set is
treated at once.  A hash map is a function, and a map of keys to tenants is its set of keys
with a function.  Times are numbers.
-/

namespace Uptrakit.Workload

open Finset Option Function

open Update (Uuid)

structure ClaimOwner where
  serviceId : Uuid
  controllerId : Uuid
  tenantId : Uuid
  claimedAt : Int

structure ClaimMap where
  keys : Finset String
  tenant : String → Uuid

def ClaimMap.empty : ClaimMap := ⟨∅, fun _ => 0⟩

/-- The maps of a registry.  A service without an entry is one with an empty set. -/
@[ext] structure ClaimRegistryInner where
  /-- The owner of a key. -/
  claims : String → Option ClaimOwner
  /-- The keys of a service. -/
  byService : Uuid → Finset String
  /-- The services with a key of a tenant. -/
  tenantServices : Uuid → Finset Uuid
  /-- The keys that a service wanted and did not get. -/
  pendingDesires : Uuid → ClaimMap

structure ClaimResult where
  granted : Finset String
  rejected : Finset String
  released : ClaimMap
  tenantsAfter : Finset Uuid
  tenantsBefore : Finset Uuid

def ClaimResult.newTenants (result : ClaimResult) : Finset Uuid :=
  result.tenantsAfter \ result.tenantsBefore

/-- The payload of `WorkloadClaimAnnouncement`. -/
structure Announcement where
  serviceId : Uuid
  controllerId : Uuid
  claimed : ClaimMap
  released : Finset String
  claimedAt : Int

def Announcement.owner (a : Announcement) (key : String) : ClaimOwner :=
  ⟨a.serviceId, a.controllerId, a.claimed.tenant key, a.claimedAt⟩

/-- The claims of a controller, as it answers another that starts.  The entries of the map are a
service, a tenant and a time. -/
structure SyncResponse where
  controllerId : Uuid
  keys : Finset String
  claim : String → Uuid × Uuid × Int

def SyncResponse.owner (a : SyncResponse) (key : String) : ClaimOwner :=
  ⟨(a.claim key).1, a.controllerId, (a.claim key).2.1, (a.claim key).2.2⟩

/-- The earlier claim wins, and of two at one time the one of the smaller service. -/
def ClaimOwner.Beats (a b : ClaimOwner) : Prop :=
  a.claimedAt < b.claimedAt ∨ a.claimedAt = b.claimedAt ∧ a.serviceId < b.serviceId

instance : DecidableRel ClaimOwner.Beats := fun a b =>
  inferInstanceAs (Decidable (a.claimedAt < b.claimedAt ∨ _))

/-- A remote claim takes the place of one of its own service, and of one that it beats. -/
def ClaimOwner.Replaces (a b : ClaimOwner) : Prop := b.serviceId = a.serviceId ∨ a.Beats b

instance : DecidableRel ClaimOwner.Replaces := fun a b =>
  inferInstanceAs (Decidable (b.serviceId = a.serviceId ∨ _))

namespace ClaimRegistryInner

def new : ClaimRegistryInner := ⟨fun _ => none, fun _ => ∅, fun _ => ∅, fun _ => .empty⟩

def ownerService (r : ClaimRegistryInner) (key : String) : Option Uuid :=
  (r.claims key).map (·.serviceId)

def tenantForKey (r : ClaimRegistryInner) (key : String) : Option Uuid :=
  (r.claims key).map (·.tenantId)

def tenantsForService (r : ClaimRegistryInner) (serviceId : Uuid) : Finset Uuid :=
  (r.byService serviceId).biUnion fun key => (r.tenantForKey key).toFinset

/-- `rebuild_tenant_index_for_service`, for several services. -/
def rebuildTenantIndex (r : ClaimRegistryInner) (services : Finset Uuid) : ClaimRegistryInner :=
  { r with
    tenantServices := fun tenantId =>
      (r.tenantServices tenantId \ services) ∪
        services.filter fun serviceId => tenantId ∈ r.tenantsForService serviceId }

def ownedBy (r : ClaimRegistryInner) (serviceId : Uuid) (keys : Finset String) : Finset String :=
  keys.filter fun key => r.ownerService key = some serviceId

def removeKeys (r : ClaimRegistryInner) (serviceId : Uuid) (keys : Finset String) :
    ClaimRegistryInner :=
  { r with
    claims := fun key => if key ∈ keys then none else r.claims key
    byService := Function.update r.byService serviceId (r.byService serviceId \ keys) }

def toRelease (r : ClaimRegistryInner) (serviceId : Uuid) (claims : ClaimMap) : Finset String :=
  r.byService serviceId \ claims.keys

/-- The keys that the service wants, does not hold, and another service owns. -/
def rejectedKeys (r : ClaimRegistryInner) (serviceId : Uuid) (claims : ClaimMap) :
    Finset String :=
  (claims.keys \ r.byService serviceId).filter fun key =>
    (r.claims key).isSome ∧ r.ownerService key ≠ some serviceId

/-- The other keys that the service wants and does not hold. -/
def grantedKeys (r : ClaimRegistryInner) (serviceId : Uuid) (claims : ClaimMap) :
    Finset String :=
  (claims.keys \ r.byService serviceId) \ r.rejectedKeys serviceId claims

/-- A claim replaces all claims of the service. -/
def tryClaim (r : ClaimRegistryInner) (now : Int) (serviceId controllerId : Uuid)
    (claims : ClaimMap) : ClaimResult × ClaimRegistryInner :=
  let tenantsBefore := r.tenantsForService serviceId
  let toRelease := r.toRelease serviceId claims
  let released : ClaimMap :=
    ⟨toRelease.filter fun key => (r.claims key).isSome, fun key => (r.tenantForKey key).getD 0⟩
  -- No key is both wanted and released, so the order of the loops does not matter here.
  let rejected := r.rejectedKeys serviceId claims
  let granted := r.grantedKeys serviceId claims
  let r := r.removeKeys serviceId toRelease
  let r : ClaimRegistryInner :=
    { r with
      claims := fun key =>
        if key ∈ granted then some ⟨serviceId, controllerId, claims.tenant key, now⟩
        else r.claims key
      byService := Function.update r.byService serviceId (r.byService serviceId ∪ granted)
      pendingDesires := Function.update r.pendingDesires serviceId
        (if rejected = ∅ then .empty else ⟨rejected, claims.tenant⟩) }
  let r := r.rebuildTenantIndex {serviceId}
  (⟨granted, rejected, released, r.tenantsForService serviceId, tenantsBefore⟩, r)

def release (r : ClaimRegistryInner) (serviceId : Uuid) : ClaimMap × ClaimRegistryInner :=
  let keys := r.byService serviceId
  let released : ClaimMap :=
    ⟨keys.filter fun key => (r.claims key).isSome, fun key => (r.tenantForKey key).getD 0⟩
  let r := r.removeKeys serviceId keys
  let r := { r with pendingDesires := Function.update r.pendingDesires serviceId .empty }
  (released, r.rebuildTenantIndex {serviceId})

/-- Releases those of the keys that the service owns. -/
def releaseKeys (r : ClaimRegistryInner) (serviceId : Uuid) (keys : Finset String) :
    ClaimMap × ClaimRegistryInner :=
  let released : ClaimMap :=
    ⟨r.ownedBy serviceId keys, fun key => (r.tenantForKey key).getD 0⟩
  let r := r.removeKeys serviceId released.keys
  (released, if released.keys = ∅ then r else r.rebuildTenantIndex {serviceId})

def remoteWins (r : ClaimRegistryInner) (a : Announcement) : Finset String :=
  a.claimed.keys.filter fun key => ∀ existing ∈ r.claims key, (a.owner key).Replaces existing

def revoked (r : ClaimRegistryInner) (a : Announcement) (serviceId : Uuid) : Finset String :=
  if serviceId = a.serviceId then ∅ else r.ownedBy serviceId (r.remoteWins a)

/-- Applies the announcement of another controller.  The revocations are the keys that services
lose by it. -/
def applyRemoteAnnouncement (r : ClaimRegistryInner) (a : Announcement) :
    (Uuid → Finset String) × ClaimRegistryInner :=
  let r := r.removeKeys a.serviceId (r.ownedBy a.serviceId a.released)
  let wins := r.remoteWins a
  let revocations := r.revoked a
  let losers := wins.biUnion fun key => (r.ownerService key).toFinset
  let r : ClaimRegistryInner :=
    { r with
      claims := fun key => if key ∈ wins then some (a.owner key) else r.claims key
      byService := fun serviceId =>
        (r.byService serviceId \ revocations serviceId) ∪
          if serviceId = a.serviceId then wins else ∅ }
  (revocations, r.rebuildTenantIndex (insert a.serviceId losers))

def unclaimed (r : ClaimRegistryInner) (keys : Finset String) : Finset String :=
  keys.filter fun key => r.claims key = none

/-- Takes over the claims of another controller for keys that have no owner. -/
def applySyncResponse (r : ClaimRegistryInner) (a : SyncResponse) : ClaimRegistryInner :=
  let new := r.unclaimed a.keys
  { r with
    claims := fun key => if key ∈ new then some (a.owner key) else r.claims key
    byService := fun serviceId =>
      r.byService serviceId ∪ new.filter fun key => (a.owner key).serviceId = serviceId
    tenantServices := fun tenantId =>
      r.tenantServices tenantId ∪
        (new.filter fun key => (a.owner key).tenantId = tenantId).image fun key =>
          (a.owner key).serviceId }

def findPendingDesiresForKeys (r : ClaimRegistryInner) (keys : Finset String) (serviceId : Uuid) :
    ClaimMap :=
  ⟨(r.pendingDesires serviceId).keys ∩ keys, (r.pendingDesires serviceId).tenant⟩

/-! ## The index -/

/-- The keys of a service are those that it owns. -/
def Indexed (r : ClaimRegistryInner) : Prop :=
  ∀ serviceId key, key ∈ r.byService serviceId ↔ r.ownerService key = some serviceId

theorem mem_ownedBy {r : ClaimRegistryInner} {serviceId keys key} :
    key ∈ r.ownedBy serviceId keys ↔ key ∈ keys ∧ r.ownerService key = some serviceId :=
  mem_filter

variable (r : ClaimRegistryInner)

theorem ownerService_removeKeys (serviceId keys key) :
    (r.removeKeys serviceId keys).ownerService key =
      if key ∈ keys then none else r.ownerService key := by
  unfold ownerService removeKeys
  dsimp only
  split <;> rfl

section TryClaim

variable (r : ClaimRegistryInner) (now : Int) (serviceId controllerId : Uuid) (claims : ClaimMap)

theorem claims_tryClaim (key) : (r.tryClaim now serviceId controllerId claims).2.claims key =
      if key ∈ r.grantedKeys serviceId claims then
        some ⟨serviceId, controllerId, claims.tenant key, now⟩
      else if key ∈ r.toRelease serviceId claims then none else r.claims key := rfl

theorem byService_tryClaim_self :
    (r.tryClaim now serviceId controllerId claims).2.byService serviceId =
      (r.byService serviceId \ r.toRelease serviceId claims) ∪ r.grantedKeys serviceId claims := by
  simp [tryClaim, rebuildTenantIndex, ClaimRegistryInner.removeKeys]

variable {s : Uuid} {key : String}

theorem byService_tryClaim_of_ne (hs : s ≠ serviceId) :
    (r.tryClaim now serviceId controllerId claims).2.byService s = r.byService s := by
  simp [tryClaim, rebuildTenantIndex, ClaimRegistryInner.removeKeys, hs]

theorem pendingDesires_tryClaim_self :
    (r.tryClaim now serviceId controllerId claims).2.pendingDesires serviceId =
      if r.rejectedKeys serviceId claims = ∅ then .empty
      else ⟨r.rejectedKeys serviceId claims, claims.tenant⟩ := by
  simp [tryClaim, rebuildTenantIndex]

variable {r serviceId claims}

theorem mem_rejectedKeys :
    key ∈ r.rejectedKeys serviceId claims ↔
      (key ∈ claims.keys ∧ key ∉ r.byService serviceId) ∧
        (r.claims key).isSome ∧ r.ownerService key ≠ some serviceId := by
  rw [rejectedKeys, mem_filter, mem_sdiff]

theorem ownerService_of_mem_grantedKeys (h : key ∈ r.grantedKeys serviceId claims)
    (hs : s ≠ serviceId) : r.ownerService key ≠ some s := by
  intro ho
  rw [grantedKeys, mem_sdiff] at h
  refine h.2 (mem_filter.2 ⟨h.1, ?_, ?_⟩)
  · exact isSome_map.symm.trans (isSome_iff_exists.2 ⟨s, ho⟩)
  · rw [ho]
    exact fun heq => hs (Option.some.inj heq)

end TryClaim

variable (a : Announcement)

theorem claims_applyRemoteAnnouncement (key) :
    let freed := r.removeKeys a.serviceId (r.ownedBy a.serviceId a.released)
    (r.applyRemoteAnnouncement a).2.claims key =
      if key ∈ freed.remoteWins a then some (a.owner key) else freed.claims key := rfl

theorem byService_applyRemoteAnnouncement (serviceId) :
    (r.applyRemoteAnnouncement a).2.byService serviceId =
      ((r.removeKeys a.serviceId (r.ownedBy a.serviceId a.released)).byService serviceId \
        (r.removeKeys a.serviceId (r.ownedBy a.serviceId a.released)).revoked a serviceId) ∪
      if serviceId = a.serviceId then
        (r.removeKeys a.serviceId (r.ownedBy a.serviceId a.released)).remoteWins a
      else ∅ := rfl

namespace Indexed

variable {r : ClaimRegistryInner}

theorem new : Indexed new := by
  intro serviceId key
  simp [ClaimRegistryInner.new, ownerService]

variable {serviceId : Uuid} {claims : ClaimMap} {key : String}

variable (h : r.Indexed)

include h

theorem removeKeys {keys} (hk : ∀ key ∈ keys, r.ownerService key = some serviceId) :
    (r.removeKeys serviceId keys).Indexed := by
  intro s key
  rw [ownerService_removeKeys]
  by_cases hs : s = serviceId
  · subst hs
    simp only [ClaimRegistryInner.removeKeys, update_self, mem_sdiff, h s key]
    split <;> simp_all
  · simp only [ClaimRegistryInner.removeKeys, update_of_ne hs, h s key]
    split
    · next hm => simp [hk key hm, Ne.symm hs]
    · exact Iff.rfl

theorem mem_toRelease_iff :
    key ∈ r.toRelease serviceId claims ↔
      r.ownerService key = some serviceId ∧ key ∉ claims.keys := by
  rw [toRelease, mem_sdiff, h serviceId key]

theorem mem_rejectedKeys_iff :
    key ∈ r.rejectedKeys serviceId claims ↔
      key ∈ claims.keys ∧ ∃ s, s ≠ serviceId ∧ r.ownerService key = some s := by
  rw [mem_rejectedKeys, h serviceId key, ownerService]
  cases hk : r.claims key with
  | none => simp
  | some => simp

/-- What is granted has had no owner. -/
theorem mem_grantedKeys_iff :
    key ∈ r.grantedKeys serviceId claims ↔ key ∈ claims.keys ∧ r.claims key = none := by
  rw [grantedKeys, mem_sdiff, mem_sdiff, h.mem_rejectedKeys_iff, h serviceId key, ownerService]
  cases hk : r.claims key with
  | none => simp
  | some =>
    simp only [map_some, Option.some.injEq, exists_eq_right']
    tauto

theorem ownerService_of_mem_toRelease (hk : key ∈ r.toRelease serviceId claims) :
    r.ownerService key = some serviceId :=
  (h serviceId key).1 (mem_sdiff.1 hk).1

theorem tryClaim (now serviceId controllerId claims) :
    (r.tryClaim now serviceId controllerId claims).2.Indexed := by
  intro s key
  rw [ownerService, claims_tryClaim]
  by_cases hs : s = serviceId
  · subst hs
    rw [byService_tryClaim_self, mem_union, mem_sdiff, h s key]
    split
    · next hg => simp [hg]
    · split <;> simp_all [ownerService]
  · rw [byService_tryClaim_of_ne _ _ _ _ _ hs, h s key]
    split
    · next hg =>
        simp [ownerService_of_mem_grantedKeys hg hs, Ne.symm hs]
    · split
      · next hr => simp [h.ownerService_of_mem_toRelease hr, Ne.symm hs]
      · exact Iff.rfl

theorem release (serviceId) : (r.release serviceId).2.Indexed :=
  h.removeKeys fun key hk => (h serviceId key).1 hk

theorem releaseKeys (serviceId keys) : (r.releaseKeys serviceId keys).2.Indexed := by
  have hr : (r.removeKeys serviceId (r.ownedBy serviceId keys)).Indexed :=
    h.removeKeys fun key hk => (mem_ownedBy.1 hk).2
  unfold ClaimRegistryInner.releaseKeys
  dsimp only
  split
  · exact hr
  · exact hr

theorem applyRemoteAnnouncement (a) : (r.applyRemoteAnnouncement a).2.Indexed := by
  have hf : (r.removeKeys a.serviceId (r.ownedBy a.serviceId a.released)).Indexed :=
    h.removeKeys fun key hk => (mem_ownedBy.1 hk).2
  intro s key
  rw [ownerService, claims_applyRemoteAnnouncement, byService_applyRemoteAnnouncement]
  rw [mem_union, mem_sdiff, hf s key, revoked]
  by_cases hs : s = a.serviceId
  · rw [if_pos hs, if_pos hs, hs]
    split
    · next hw => simp [hw, Announcement.owner]
    · next hl => simp [hl, ownerService]
  · rw [if_neg hs, if_neg hs, mem_ownedBy]
    split
    · next hw => simp [hw, Announcement.owner, Ne.symm hs]
    · next hl => simp [hl, ownerService]

end Indexed

end ClaimRegistryInner

/-! ## Registries -/

structure WorkloadClaimRegistry where
  inner : ClaimRegistryInner
  indexed : inner.Indexed

namespace WorkloadClaimRegistry

def new : WorkloadClaimRegistry := ⟨.new, .new⟩

variable (r : WorkloadClaimRegistry)

def tryClaim (now : Int) (serviceId controllerId : Uuid) (claims : ClaimMap) :
    ClaimResult × WorkloadClaimRegistry :=
  ((r.inner.tryClaim now serviceId controllerId claims).1,
    ⟨_, r.indexed.tryClaim now serviceId controllerId claims⟩)

def release (serviceId : Uuid) : ClaimMap × WorkloadClaimRegistry :=
  ((r.inner.release serviceId).1, ⟨_, r.indexed.release serviceId⟩)

def releaseKeys (serviceId : Uuid) (keys : Finset String) : ClaimMap × WorkloadClaimRegistry :=
  ((r.inner.releaseKeys serviceId keys).1, ⟨_, r.indexed.releaseKeys serviceId keys⟩)

def applyRemoteAnnouncement (a : Announcement) : (Uuid → Finset String) × WorkloadClaimRegistry :=
  ((r.inner.applyRemoteAnnouncement a).1, ⟨_, r.indexed.applyRemoteAnnouncement a⟩)

end WorkloadClaimRegistry

/-! ## Handlers of a controller -/

/-- What is sent for a claim: the announcement to the other controllers, the result to the
service, and the states of the tenants that it did not serve before. -/
structure ClaimReply where
  announcement : Option Announcement
  granted : Finset String
  rejected : Finset String
  newTenants : Finset Uuid

structure ClaimTimes where
  claimedAt : Int
  announcedAt : Int

namespace WorkloadClaimRegistry

variable (r : WorkloadClaimRegistry)

def claimedKeys (granted : Finset String) : ClaimMap :=
  ⟨granted.filter fun key => (r.inner.tenantForKey key).isSome,
    fun key => (r.inner.tenantForKey key).getD 0⟩

def handleWorkloadClaim (times : ClaimTimes) (controllerId serviceId : Uuid) (claims : ClaimMap) :
    ClaimReply × WorkloadClaimRegistry :=
  let claimed := r.tryClaim times.claimedAt serviceId controllerId claims
  let result := claimed.1
  let announcement : Option Announcement :=
    if result.granted = ∅ ∧ result.released.keys = ∅ then none
    else some ⟨serviceId, controllerId, claimed.2.claimedKeys result.granted,
      result.released.keys, times.announcedAt⟩
  (⟨announcement, result.granted, result.rejected, result.newTenants⟩, claimed.2)

/-- Keys that have become free are claimed for a service that waits for them.  Nothing is sent
if none is granted. -/
def regrantTo (times : ClaimTimes) (controllerId serviceId : Uuid) (desired : ClaimMap) :
    Option ClaimReply × WorkloadClaimRegistry :=
  let claimed := r.tryClaim times.claimedAt serviceId controllerId desired
  let result := claimed.1
  (if result.granted = ∅ then none
    else some ⟨some ⟨serviceId, controllerId, claimed.2.claimedKeys result.granted, ∅,
      times.announcedAt⟩, result.granted, result.rejected, result.newTenants⟩, claimed.2)

/-- The services of the list get what they desire, one after the other. -/
def regrant (controllerId : Uuid) (clock : Uuid → ClaimTimes) (desires : Uuid → ClaimMap) :
    List Uuid → WorkloadClaimRegistry → List (Uuid × ClaimReply) × WorkloadClaimRegistry
  | [], r => ([], r)
  | serviceId :: services, r =>
    let claimed := r.regrantTo (clock serviceId) controllerId serviceId (desires serviceId)
    let rest := regrant controllerId clock desires services claimed.2
    ((claimed.1.map fun reply => (serviceId, reply)).toList ++ rest.1, rest.2)

/-- The loops over `find_pending_desires_for_keys`.  The list are the services that wait, in the
order of the hash map. -/
def regrantKeys (controllerId : Uuid) (clock : Uuid → ClaimTimes) (services : List Uuid)
    (keys : Finset String) : List (Uuid × ClaimReply) × WorkloadClaimRegistry :=
  regrant controllerId clock (r.inner.findPendingDesiresForKeys keys) services r

def releaseAnnouncement (controllerId serviceId : Uuid) (keys : Finset String)
    (announcedAt : Int) : Announcement :=
  ⟨serviceId, controllerId, .empty, keys, announcedAt⟩

end WorkloadClaimRegistry

namespace WorkloadClaimRegistry

variable (controllerId : Uuid) (clock : Uuid → ClaimTimes) (services : List Uuid)
  (r : WorkloadClaimRegistry)

def handleWorkloadRelease (serviceId : Uuid) (keys : Finset String) (announcedAt : Int) :
    (Option Announcement × List (Uuid × ClaimReply)) × WorkloadClaimRegistry :=
  let freed := r.releaseKeys serviceId keys
  if freed.1.keys = ∅ then ((none, []), freed.2)
  else
    let regranted := freed.2.regrantKeys controllerId clock services freed.1.keys
    ((some (releaseAnnouncement controllerId serviceId freed.1.keys announcedAt), regranted.1),
      regranted.2)

def releaseAllClaimsOnDisconnect (serviceId : Uuid) (announcedAt : Int) :
    (Option Announcement × List (Uuid × ClaimReply)) × WorkloadClaimRegistry :=
  let freed := r.release serviceId
  if freed.1.keys = ∅ then ((none, []), freed.2)
  else
    let regranted := freed.2.regrantKeys controllerId clock services freed.1.keys
    ((some (releaseAnnouncement controllerId serviceId freed.1.keys announcedAt), regranted.1),
      regranted.2)

/-- `deliver_controller_event`, for an announcement. -/
def deliverAnnouncement (a : Announcement) :
    ((Uuid → Finset String) × List (Uuid × ClaimReply)) × WorkloadClaimRegistry :=
  let applied := r.applyRemoteAnnouncement a
  if a.released = ∅ then ((applied.1, []), applied.2)
  else
    let regranted := applied.2.regrantKeys controllerId clock services a.released
    ((applied.1, regranted.1), regranted.2)

end WorkloadClaimRegistry

end Uptrakit.Workload
