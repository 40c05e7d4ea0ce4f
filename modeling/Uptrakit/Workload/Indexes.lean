import Uptrakit.Concurrent.Run
import Uptrakit.Workload.MapAnnouncements

/-!
# The indexes of the claim registry

The keys of a service and the services of a tenant are kept in maps of their own, which some
operations update and others compute anew, for the services that they expect to be concerned.
After any operations both are what the owners of the keys say (`indexes_agree`).
-/

namespace Uptrakit.Workload

open Data Option Finset Function
open Update (Uuid)

namespace ClaimRegistryInner

/-- The services of a tenant are those with a key of the tenant. -/
def TenantIndexed (r : ClaimRegistryInner) : Prop :=
  ∀ t s, s ∈ r.tenantServices t ↔ t ∈ r.tenantsForService s

variable {r r' : ClaimRegistryInner}

theorem tenantsForService_congr {s} (hk : r'.byService s = r.byService s)
    (hc : ∀ key ∈ r.byService s, r'.claims key = r.claims key) :
    r'.tenantsForService s = r.tenantsForService s := by
  unfold tenantsForService tenantForKey
  rw [hk]
  exact biUnion_congr rfl fun key hke => by rw [hc key hke]

namespace TenantIndexed

theorem new : TenantIndexed new := by
  intro t s
  simp [ClaimRegistryInner.new, tenantsForService]

variable (h : r.TenantIndexed)

include h

/-- The index is right again when it is computed anew for all services whose tenants changed. -/
theorem rebuild {services} (hi : r'.tenantServices = r.tenantServices)
    (hsa : ∀ s, s ∉ services → r'.tenantsForService s = r.tenantsForService s) :
    (r'.rebuildTenantIndex services).TenantIndexed := by
  intro t s
  rw [mem_tenantServices_rebuildTenantIndex, hi, h t s]
  show _ ↔ t ∈ r'.tenantsForService s
  by_cases hs : s ∈ services
  · simp [hs]
  · simp [hs, hsa s hs]

variable (hindexed : r.Indexed)

include hindexed

/-- Keys that are removed from their owner do not concern other services. -/
theorem removeKeys {serviceId keys} (hk : ∀ key ∈ keys, r.ownerService key = some serviceId)
    (hr' : r'.claims = (r.removeKeys serviceId keys).claims)
    (hby : r'.byService = (r.removeKeys serviceId keys).byService)
    (hi : r'.tenantServices = r.tenantServices) :
    (r'.rebuildTenantIndex {serviceId}).TenantIndexed := by
  refine h.rebuild hi fun s hs => ?_
  rw [mem_singleton] at hs
  refine tenantsForService_congr ?_ fun key hke => ?_
  · rw [hby]
    exact update_of_ne hs _ _
  · have hn : key ∉ keys := fun hm => by
      have ho := (hindexed s key).1 hke
      rw [hk key hm] at ho
      exact hs (some.inj ho).symm
    rw [hr']
    exact if_neg hn

theorem tryClaim (now serviceId controllerId claims) :
    (r.tryClaim now serviceId controllerId claims).2.TenantIndexed := by
  refine h.rebuild rfl fun s hs => ?_
  rw [mem_singleton] at hs
  refine tenantsForService_congr
    (byService_tryClaim_of_ne r now serviceId controllerId claims hs) fun key hk => ?_
  have ho := (hindexed s key).1 hk
  refine (claims_tryClaim r now serviceId controllerId claims key).trans ?_
  rw [if_neg, if_neg]
  · intro hr
    rw [hindexed.ownerService_of_mem_toRelease hr] at ho
    exact hs (some.inj ho).symm
  · exact fun hg => ownerService_of_mem_grantedKeys hg hs ho

theorem release (serviceId) : (r.release serviceId).2.TenantIndexed :=
  h.removeKeys hindexed (fun key hk => (hindexed serviceId key).1 hk) rfl rfl rfl

theorem releaseKeys (serviceId keys) : (r.releaseKeys serviceId keys).2.TenantIndexed := by
  unfold ClaimRegistryInner.releaseKeys
  dsimp only
  split
  · next hn =>
      rw [hn, removeKeys_empty]
      exact h
  · exact h.removeKeys hindexed (fun key hk => (mem_ownedBy.1 hk).2) rfl rfl rfl

theorem applyRemoteAnnouncement (a) : (r.applyRemoteAnnouncement a).2.TenantIndexed := by
  have hf : (r.removeKeys a.serviceId (r.ownedBy a.serviceId a.released)).Indexed :=
    hindexed.removeKeys fun key hke => (mem_ownedBy.1 hke).2
  refine h.rebuild rfl fun s hs => ?_
  obtain ⟨ho, hk⟩ := not_or.1 (mem_insert.not.1 hs)
  have hsa : (r.removeKeys a.serviceId (r.ownedBy a.serviceId a.released)).byService s =
      r.byService s := update_of_ne ho _ _
  -- A service that loses a key is among those for which the index is computed anew.
  have hw : ∀ key ∈ r.byService s,
      key ∉ (r.removeKeys a.serviceId (r.ownedBy a.serviceId a.released)).remoteWins a := by
    intro key hke hw
    rw [← hsa] at hke
    refine hk (mem_biUnion.2 ⟨key, hw, ?_⟩)
    exact mem_toFinset.2 ((hf s key).1 hke)
  refine tenantsForService_congr ?_ fun key hke => ?_
  · refine (byService_applyRemoteAnnouncement r a s).trans ?_
    rw [if_neg ho, union_empty, hsa, revoked, if_neg ho]
    refine sdiff_eq_self_of_disjoint (disjoint_left.2 fun key hke hl => ?_)
    exact hw key hke (mem_ownedBy.1 hl).1
  · refine (claims_applyRemoteAnnouncement r a key).trans ?_
    rw [if_neg (hw key hke)]
    refine if_neg fun how => ho ?_
    exact some.inj (((hindexed s key).1 hke).symm.trans (mem_ownedBy.1 how).2)

end TenantIndexed

section Sync

variable (r) (a : SyncResponse)

theorem tenantForKey_applySyncResponse (key) : (r.applySyncResponse a).tenantForKey key =
      if key ∈ r.unclaimed a.keys then some (a.owner key).tenantId else r.tenantForKey key := by
  unfold tenantForKey applySyncResponse
  dsimp only
  split <;> rfl

variable {r}

theorem Indexed.not_mem_byService_of_unclaimed (hindexed : r.Indexed) {keys key}
    (h : key ∈ r.unclaimed keys) (s : Uuid) : key ∉ r.byService s := by
  rw [hindexed s key, ownerService, (r.mem_unclaimed.1 h).2]
  exact (some_ne_none s).symm

theorem Indexed.applySyncResponse (hindexed : r.Indexed) : (r.applySyncResponse a).Indexed := by
  intro s key
  dsimp only [ownerService, ClaimRegistryInner.applySyncResponse]
  split
  · next hn => simp [hn, hindexed.not_mem_byService_of_unclaimed hn]
  · next ho => simp [ho, hindexed s key, ownerService]

theorem TenantIndexed.applySyncResponse (h : r.TenantIndexed) (hindexed : r.Indexed) :
    (r.applySyncResponse a).TenantIndexed := by
  intro t s
  refine (mem_tenantServices_sync a r).trans ?_
  rw [h t s, mem_tenantsForService, mem_tenantsForService]
  constructor
  · rintro (⟨key, hk, ht⟩ | ⟨key, hn, ht, hs⟩)
    · refine ⟨key, (mem_byService_sync a r).2 (.inl hk), ?_⟩
      rw [tenantForKey_applySyncResponse, if_neg, ht]
      exact fun hn => hindexed.not_mem_byService_of_unclaimed hn s hk
    · refine ⟨key, (mem_byService_sync a r).2 (.inr ⟨hn, hs⟩), ?_⟩
      rw [tenantForKey_applySyncResponse, if_pos hn, ht]
  · rintro ⟨key, hk, ht⟩
    rw [tenantForKey_applySyncResponse] at ht
    rcases (mem_byService_sync a r).1 hk with ho | ⟨hn, hs⟩
    · rw [if_neg fun hn => hindexed.not_mem_byService_of_unclaimed hn s ho] at ht
      exact .inl ⟨key, ho, ht⟩
    · rw [if_pos hn] at ht
      exact .inr ⟨key, hn, some.inj ht, hs⟩

end Sync

end ClaimRegistryInner

/-! ## Operations -/

inductive Operation
  | tryClaim (now : Int) (serviceId controllerId : Uuid) (claims : ClaimMap)
  | release (serviceId : Uuid)
  | releaseKeys (serviceId : Uuid) (keys : Finset String)
  | applyRemoteAnnouncement (a : Announcement)
  | applySyncResponse (a : SyncResponse)

namespace Operation

def apply (m : ClaimMaps) : Operation → ClaimMaps
  | tryClaim now serviceId controllerId claims =>
    (m.tryClaim now serviceId controllerId claims).2
  | release serviceId => (m.release serviceId).2
  | releaseKeys serviceId keys => (m.releaseKeys serviceId keys).2
  | applyRemoteAnnouncement a => (m.applyRemoteAnnouncement a).2
  | applySyncResponse a => m.applySyncResponse a

/-- The operation of `Workload.Registry`. -/
def applyInner (r : ClaimRegistryInner) : Operation → ClaimRegistryInner
  | tryClaim now serviceId controllerId claims =>
    (r.tryClaim now serviceId controllerId claims).2
  | release serviceId => (r.release serviceId).2
  | releaseKeys serviceId keys => (r.releaseKeys serviceId keys).2
  | applyRemoteAnnouncement a => (r.applyRemoteAnnouncement a).2
  | applySyncResponse a => r.applySyncResponse a

/-- The maps refine the registry. -/
theorem inner_apply (op : Operation) (m : ClaimMaps) :
    (op.apply m).inner = op.applyInner m.inner := by
  cases op with
  | tryClaim now serviceId controllerId claims =>
    exact m.inner_tryClaim now serviceId controllerId claims
  | release serviceId => exact m.inner_release serviceId
  | releaseKeys serviceId keys => exact m.inner_releaseKeys serviceId keys
  | applyRemoteAnnouncement a => exact m.inner_applyRemoteAnnouncement a
  | applySyncResponse a => exact m.inner_applySyncResponse a

variable {r : ClaimRegistryInner}

theorem indexed_applyInner (op : Operation) (h : r.Indexed) : (op.applyInner r).Indexed := by
  cases op with
  | tryClaim now serviceId controllerId claims =>
    exact h.tryClaim now serviceId controllerId claims
  | release serviceId => exact h.release serviceId
  | releaseKeys serviceId keys => exact h.releaseKeys serviceId keys
  | applyRemoteAnnouncement a => exact h.applyRemoteAnnouncement a
  | applySyncResponse a => exact h.applySyncResponse a

theorem tenantIndexed_applyInner (op : Operation) (h : r.TenantIndexed) (hindexed : r.Indexed) :
    (op.applyInner r).TenantIndexed := by
  cases op with
  | tryClaim now serviceId controllerId claims =>
    exact h.tryClaim hindexed now serviceId controllerId claims
  | release serviceId => exact h.release hindexed serviceId
  | releaseKeys serviceId keys => exact h.releaseKeys hindexed serviceId keys
  | applyRemoteAnnouncement a => exact h.applyRemoteAnnouncement hindexed a
  | applySyncResponse a => exact h.applySyncResponse a hindexed

end Operation

/-! ## Empty sets -/

namespace ClaimMaps

open Concurrent

variable (m : ClaimMaps)

theorem noEmpty_rebuildTenantIndexForService (serviceId) :
    (m.rebuildTenantIndexForService serviceId).tenantServices.NoEmpty := by
  have hs : ∀ (index : SetIndex Uuid Uuid) key, index.NoEmpty →
      (m.indexKey serviceId index key).NoEmpty := by
    intro index key hi
    unfold indexKey
    cases m.claims key with
    | none => exact hi
    | some => exact hi.insertAt _ _
  exact foldl_invariant hs (.without m.tenantServices serviceId) _

/-- The loop of `release_keys` leaves the index of the tenants alone. -/
theorem tenantServices_foldl_releaseOwnedStep (serviceId : Uuid) (keys : List String)
    (released : ClaimMap) :
    (keys.foldl (releaseOwnedStep serviceId) (released, m)).2.tenantServices =
      m.tenantServices := by
  have hst : ∀ (s : ClaimMap × ClaimMaps) key, s.2.tenantServices = m.tenantServices →
      (releaseOwnedStep serviceId s key).2.tenantServices = m.tenantServices := by
    intro s key hs
    unfold releaseOwnedStep
    split <;> exact hs
  exact foldl_invariant hst rfl keys

variable {m}

theorem noEmpty_apply (h : m.tenantServices.NoEmpty) (op : Operation) :
    (op.apply m).tenantServices.NoEmpty := by
  cases op with
  | tryClaim | release => exact noEmpty_rebuildTenantIndexForService _ _
  | releaseKeys =>
    show SetIndex.NoEmpty (ClaimMaps.tenantServices (ite _ _ _))
    split
    · rwa [tenantServices_foldl_releaseOwnedStep]
    · exact noEmpty_rebuildTenantIndexForService _ _
  | applyRemoteAnnouncement =>
    have hs : ∀ (m : ClaimMaps) serviceId, m.tenantServices.NoEmpty →
        (m.rebuildTenantIndexForService serviceId).tenantServices.NoEmpty :=
      fun m serviceId _ => noEmpty_rebuildTenantIndexForService m serviceId
    exact foldl_invariant hs (noEmpty_rebuildTenantIndexForService _ _) _
  | applySyncResponse a =>
    have hs : ∀ (m : ClaimMaps) key, m.tenantServices.NoEmpty →
        (syncStep a m key).tenantServices.NoEmpty := by
      intro m key hm
      unfold syncStep
      cases m.claims key with
      | some => exact hm
      | none => exact hm.insertAt _ _
    exact foldl_invariant hs h _

/-! ## Agreement -/

/-- The indexes are what the owners of the keys say, and no set is empty. -/
structure Agree (m : ClaimMaps) : Prop where
  indexed : m.inner.Indexed
  tenantIndexed : m.inner.TenantIndexed
  noEmpty : m.tenantServices.NoEmpty

namespace Agree

theorem new : Agree new := ⟨.new, .new, .empty⟩

theorem apply (h : m.Agree) (op : Operation) : (op.apply m).Agree where
  indexed := op.inner_apply m ▸ op.indexed_applyInner h.indexed
  tenantIndexed := op.inner_apply m ▸ op.tenantIndexed_applyInner h.tenantIndexed h.indexed
  noEmpty := noEmpty_apply h.noEmpty op

theorem mem_byService_iff (h : m.Agree) {s key} :
    key ∈ m.byService.get s ↔ ∃ owner, m.claims key = some owner ∧ owner.serviceId = s :=
  (h.indexed s key).trans map_eq_some_iff

theorem mem_servicesForTenant_iff (h : m.Agree) {t s} : s ∈ m.servicesForTenant t ↔
      ∃ key owner, m.claims key = some owner ∧ owner.serviceId = s ∧ owner.tenantId = t := by
  refine (h.tenantIndexed t s).trans (ClaimRegistryInner.mem_tenantsForService.trans ?_)
  constructor
  · rintro ⟨key, hk, ht⟩
    obtain ⟨owner, hc, hs⟩ := h.mem_byService_iff.1 hk
    obtain ⟨_, hc', ht⟩ := map_eq_some_iff.1 ht
    obtain rfl := some.inj (hc.symm.trans hc')
    exact ⟨key, owner, hc, hs, ht⟩
  · rintro ⟨key, owner, hc, hs, ht⟩
    exact ⟨key, h.mem_byService_iff.2 ⟨owner, hc, hs⟩, map_eq_some_iff.2 ⟨owner, hc, ht⟩⟩

end Agree

end ClaimMaps

/-- After any operations, the keys of a service are those that it owns, the services of a tenant
are the owners of its keys, and there is no empty set of services. -/
theorem indexes_agree (ops : List Operation) :
    let m := ops.foldl Operation.apply ClaimMaps.new
    (∀ s key, key ∈ m.byService.get s ↔ ∃ owner, m.claims key = some owner ∧ owner.serviceId = s) ∧
    (∀ t s, s ∈ m.servicesForTenant t ↔
      ∃ key owner, m.claims key = some owner ∧ owner.serviceId = s ∧ owner.tenantId = t) ∧
    ∀ t, m.tenantServices t ≠ some ∅ := by
  intro m
  have hs : ∀ (m : ClaimMaps) (op : Operation), m.Agree → (op.apply m).Agree :=
    fun _ op h => h.apply op
  have ha : m.Agree := Concurrent.foldl_invariant hs .new ops
  refine ⟨fun s key => ha.mem_byService_iff, fun t s => ha.mem_servicesForTenant_iff, ?_⟩
  intro t he
  exact not_nonempty_empty (ha.noEmpty t ∅ he)

/-- After any operations the maps stand for the registry that `Workload.Registry` computes, and
every operation answers as it does there. -/
theorem maps_refine_registry (ops : List Operation) :
    let m := ops.foldl Operation.apply ClaimMaps.new
    let r := ops.foldl Operation.applyInner ClaimRegistryInner.new
    m.inner = r ∧
    (∀ now s c claims, (m.tryClaim now s c claims).1.Same (r.tryClaim now s c claims).1) ∧
    (∀ s, (m.release s).1.get = (r.release s).1.get) ∧
    (∀ s keys, (m.releaseKeys s keys).1.get = (r.releaseKeys s keys).1.get) ∧
    ∀ a, (m.applyRemoteAnnouncement a).1.get = (r.applyRemoteAnnouncement a).1 := by
  intro m r
  have hi : m.inner = r :=
    (List.foldl_hom _ fun m op => (Operation.inner_apply op m).symm).symm
  rw [← hi]
  exact ⟨rfl, m.same_tryClaim, m.get_release, m.get_releaseKeys, m.get_applyRemoteAnnouncement⟩

end Uptrakit.Workload
