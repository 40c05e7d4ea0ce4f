import Uptrakit.Workload.Maps

/-!
# Loops of the claim registry

The loops of claims and releases, on what is read from the maps.  A loop over a set of keys does
what the registry of `Workload.Registry` does for the set at once, since each key is treated by
itself (`foldl_eq_step`).
-/

namespace Uptrakit.Workload

open Data ClaimRegistryInner Finset Function Option
open Update (Uuid)

/-! ## The tenant index -/

namespace ClaimRegistryInner

variable {r : ClaimRegistryInner}

theorem mem_tenantsForService {s t} :
    t ∈ r.tenantsForService s ↔ ∃ key ∈ r.byService s, r.tenantForKey key = some t := by
  simp [tenantsForService]

theorem mem_tenantServices_rebuildTenantIndex {services s t} :
    s ∈ (r.rebuildTenantIndex services).tenantServices t ↔
      (s ∈ r.tenantServices t ∧ s ∉ services) ∨ (s ∈ services ∧ t ∈ r.tenantsForService s) := by
  simp [rebuildTenantIndex]

variable (r)

theorem rebuildTenantIndex_rebuildTenantIndex (A B) :
    (r.rebuildTenantIndex A).rebuildTenantIndex B = r.rebuildTenantIndex (A ∪ B) := by
  have hi : ((r.rebuildTenantIndex A).rebuildTenantIndex B).tenantServices =
      (r.rebuildTenantIndex (A ∪ B)).tenantServices := by
    funext t
    ext s
    rw [mem_tenantServices_rebuildTenantIndex, mem_tenantServices_rebuildTenantIndex,
      mem_tenantServices_rebuildTenantIndex, mem_union]
    show (_ ∨ (_ ∧ t ∈ r.tenantsForService s)) ↔ _
    tauto
  exact ClaimRegistryInner.ext rfl rfl hi rfl

end ClaimRegistryInner

namespace ClaimMaps

theorem mem_get_indexKey {m : ClaimMaps} {serviceId s t index key} :
    s ∈ (m.indexKey serviceId index key).get t ↔
      s ∈ index.get t ∨ (s = serviceId ∧ m.inner.tenantForKey key = some t) := by
  unfold indexKey tenantForKey
  show _ ↔ _ ∨ (_ ∧ (m.claims key).map _ = _)
  cases m.claims key with
  | none => simp
  | some =>
    rw [SetIndex.mem_get_insertAt, map_some, some_inj, eq_comm (a := t), and_comm]

theorem inner_rebuildTenantIndexForService (m : ClaimMaps) (serviceId : Uuid) :
    (m.rebuildTenantIndexForService serviceId).inner = m.inner.rebuildTenantIndex {serviceId} := by
  have hi : (m.rebuildTenantIndexForService serviceId).tenantServices.get =
      (m.inner.rebuildTenantIndex {serviceId}).tenantServices := by
    funext t
    ext s
    have hl := foldl_iff_or_exists (f := m.indexKey serviceId)
      (P := fun index : SetIndex Uuid Uuid => s ∈ index.get t) (fun _ _ => mem_get_indexKey)
      ((m.byService.get serviceId).sort (· ≤ ·)) (m.tenantServices.without serviceId)
    refine hl.trans ?_
    rw [SetIndex.get_without]
    rw [mem_tenantServices_rebuildTenantIndex, mem_singleton,
      mem_erase, and_comm (a := s ≠ serviceId)]
    refine or_congr Iff.rfl ?_
    rw [mem_tenantsForService]
    constructor
    · rintro ⟨key, hk, rfl, ht⟩
      exact ⟨rfl, key, mem_sort _ |>.1 hk, ht⟩
    · rintro ⟨rfl, key, hk, ht⟩
      exact ⟨key, mem_sort _ |>.2 hk, rfl, ht⟩
  exact ClaimRegistryInner.ext rfl rfl hi rfl

theorem inner_foldl_rebuildTenantIndexForService (m : ClaimMaps) (services : List Uuid) :
    (services.foldl rebuildTenantIndexForService m).inner =
      m.inner.rebuildTenantIndex services.toFinset :=
  foldl_eq_step (fun r => by simp [rebuildTenantIndex]) rebuildTenantIndex_rebuildTenantIndex
    inner_rebuildTenantIndexForService services m

/-! ## Loops that remove -/

end ClaimMaps

namespace ClaimRegistryInner

variable (r : ClaimRegistryInner) (serviceId : Uuid)

def collectKeys (serviceId : Uuid) (s : (String → Option Uuid) × ClaimRegistryInner)
    (keys : Finset String) : (String → Option Uuid) × ClaimRegistryInner :=
  (fun key => if key ∈ keys then (s.2.tenantForKey key).or (s.1 key) else s.1 key,
    s.2.removeKeys serviceId keys)

theorem removeKeys_empty : r.removeKeys serviceId ∅ = r := by
  simp [removeKeys]

theorem removeKeys_removeKeys (A B) :
    (r.removeKeys serviceId A).removeKeys serviceId B = r.removeKeys serviceId (A ∪ B) := by
  ext1
  · funext key
    simp only [removeKeys]
    grind
  · simp [removeKeys, sdiff_sdiff_left]
  · rfl
  · rfl

theorem tenantForKey_removeKeys (keys key) : (r.removeKeys serviceId keys).tenantForKey key =
      if key ∈ keys then none else r.tenantForKey key := by
  unfold tenantForKey removeKeys
  dsimp only
  split <;> rfl

theorem get_collected (keys) : (collectKeys serviceId (ClaimMap.empty.get, r) keys).1 =
      (⟨keys.filter fun key => (r.claims key).isSome,
        fun key => (r.tenantForKey key).getD 0⟩ : ClaimMap).get := by
  funext key
  unfold collectKeys ClaimMap.get ClaimMap.empty tenantForKey
  cases hc : r.claims key with
  | none | some => simp [hc]

theorem collectKeys_empty (s : (String → Option Uuid) × ClaimRegistryInner) :
    collectKeys serviceId s ∅ = s := by
  simp [collectKeys, removeKeys_empty]

theorem collectKeys_collectKeys (s : (String → Option Uuid) × ClaimRegistryInner) (A B) :
    collectKeys serviceId (collectKeys serviceId s A) B = collectKeys serviceId s (A ∪ B) := by
  refine Prod.ext ?_ (removeKeys_removeKeys s.2 serviceId A B)
  funext key
  simp only [collectKeys, tenantForKey_removeKeys]
  grind

end ClaimRegistryInner

namespace ClaimMaps

theorem inner_removeKey (m : ClaimMaps) (serviceId : Uuid) (key : String) :
    (m.removeKey serviceId key).inner = m.inner.removeKeys serviceId {key} := by
  ext1
  · funext k
    simp [inner, removeKey, removeKeys, update_apply]
  · refine (SetIndex.get_removeAt _ _ _).trans ?_
    simp [removeKeys, sdiff_singleton_eq_erase, inner]
  · rfl
  · rfl

theorem get_collect (m : ClaimMaps) (released : ClaimMap) (key : String) :
    (collect m.claims released key).get = fun k =>
      if k = key then (m.inner.tenantForKey k).or (released.get k) else released.get k := by
  unfold collect tenantForKey inner
  funext k
  by_cases hk : k = key
  · subst hk
    cases hc : m.claims k with
    | none => simp [hc]
    | some => simp [hc, ClaimMap.get_insertKey]
  · cases m.claims key with
    | none => simp [hk]
    | some => simp [ClaimMap.get_insertKey, hk]

/-- What a loop that collects has read from the maps and put into its own. -/
def view (s : ClaimMap × ClaimMaps) : (String → Option Uuid) × ClaimRegistryInner :=
  (s.1.get, s.2.inner)

theorem view_releaseStep (serviceId s key) :
    view (releaseStep serviceId s key) = collectKeys serviceId (view s) {key} := by
  refine Prod.ext ((get_collect s.2 s.1 key).trans ?_) (inner_removeKey s.2 serviceId key)
  simp [collectKeys, view]

theorem view_foldl_releaseStep (serviceId : Uuid) (s : ClaimMap × ClaimMaps)
    (keys : Finset String) :
    view ((keys.sort (· ≤ ·)).foldl (releaseStep serviceId) s) =
      collectKeys serviceId (view s) keys := by
  rw [foldl_eq_step (collectKeys_empty serviceId)
    (collectKeys_collectKeys serviceId) (view_releaseStep serviceId),
    sort_toFinset]

/-! ## Claims -/

end ClaimMaps

namespace ClaimRegistryInner

/-- The key has another owner. -/
def Taken (r : ClaimRegistryInner) (serviceId : Uuid) (key : String) : Prop :=
  (r.claims key).isSome ∧ r.ownerService key ≠ some serviceId

instance (r : ClaimRegistryInner) (serviceId : Uuid) : DecidablePred (r.Taken serviceId) :=
  fun _ => inferInstanceAs (Decidable (_ ∧ _))

/-- Grants those of the keys that have no other owner, and collects the others. -/
def grantKeys (serviceId : Uuid) (owner : String → ClaimOwner)
    (s : Finset String × Finset String × ClaimRegistryInner) (keys : Finset String) :
    Finset String × Finset String × ClaimRegistryInner :=
  let granted := keys.filter fun key => ¬ s.2.2.Taken serviceId key
  (s.1 ∪ granted, s.2.1 ∪ keys.filter (s.2.2.Taken serviceId),
    { s.2.2 with
      claims := fun key => if key ∈ granted then some (owner key) else s.2.2.claims key
      byService := Function.update s.2.2.byService serviceId
        (s.2.2.byService serviceId ∪ granted) })

section Grant

variable {serviceId : Uuid} {owner : String → ClaimOwner}
  (howner : ∀ key, (owner key).serviceId = serviceId)
  (s : Finset String × Finset String × ClaimRegistryInner)

variable {key : String}

theorem grantKeys_singleton_of_taken (h : s.2.2.Taken serviceId key) :
    grantKeys serviceId owner s {key} = (s.1, insert key s.2.1, s.2.2) := by
  unfold grantKeys
  rw [filter_singleton, filter_singleton, if_pos h, if_neg (not_not.2 h)]
  simp

include howner in
theorem taken_grantKeys_iff (keys key) :
    (grantKeys serviceId owner s keys).2.2.Taken serviceId key ↔ s.2.2.Taken serviceId key := by
  unfold Taken ownerService grantKeys
  dsimp only
  split
  · next hg =>
      have hf := (mem_filter.1 hg).2
      simp only [map_some, howner, ne_eq, not_true_eq_false, and_false, false_iff]
      exact hf
  · exact Iff.rfl

include howner in
theorem grantKeys_grantKeys (A B) : grantKeys serviceId owner (grantKeys serviceId owner s A) B =
      grantKeys serviceId owner s (A ∪ B) := by
  have hg : (B.filter fun key =>
      ¬ (grantKeys serviceId owner s A).2.2.Taken serviceId key) =
        B.filter fun key => ¬ s.2.2.Taken serviceId key :=
    filter_congr fun key _ => not_congr (taken_grantKeys_iff howner s A key)
  have hr : B.filter ((grantKeys serviceId owner s A).2.2.Taken serviceId) =
      B.filter (s.2.2.Taken serviceId) :=
    filter_congr fun key _ => taken_grantKeys_iff howner s A key
  rw [grantKeys, hg, hr]
  unfold grantKeys
  refine Prod.ext ?_ (Prod.ext ?_ ?_)
  · simp [filter_union]
  · simp [filter_union]
  · ext1
    · funext key
      simp only [mem_filter, mem_union]
      grind
    · simp [filter_union]
    · rfl
    · rfl

end Grant

section TryClaim

variable (r : ClaimRegistryInner) (now : Int) (serviceId controllerId : Uuid) (claims : ClaimMap)

def claimKeys : ClaimRegistryInner :=
  { r.removeKeys serviceId (r.toRelease serviceId claims) with
    claims := fun key =>
      if key ∈ r.grantedKeys serviceId claims then
        some ⟨serviceId, controllerId, claims.tenant key, now⟩
      else (r.removeKeys serviceId (r.toRelease serviceId claims)).claims key
    byService := Function.update
      (r.removeKeys serviceId (r.toRelease serviceId claims)).byService serviceId
      ((r.removeKeys serviceId (r.toRelease serviceId claims)).byService serviceId ∪
        r.grantedKeys serviceId claims) }

theorem grantKeys_removeKeys :
    grantKeys serviceId (fun key => ⟨serviceId, controllerId, claims.tenant key, now⟩)
        (∅, ∅, r.removeKeys serviceId (r.toRelease serviceId claims))
        (claims.keys \ r.byService serviceId) =
      (r.grantedKeys serviceId claims, r.rejectedKeys serviceId claims,
        r.claimKeys now serviceId controllerId claims) := by
  have ht : ∀ key ∈ claims.keys \ r.byService serviceId,
      ((r.removeKeys serviceId (r.toRelease serviceId claims)).Taken serviceId key ↔
        r.Taken serviceId key) := by
    intro key hke
    -- No key is both wanted and released.
    have hk : key ∉ r.toRelease serviceId claims := fun hre =>
      (mem_sdiff.1 hre).2 (mem_sdiff.1 hke).1
    unfold Taken
    rw [ownerService_removeKeys]
    simp [removeKeys, hk]
  have hr : (claims.keys \ r.byService serviceId).filter
      ((r.removeKeys serviceId (r.toRelease serviceId claims)).Taken serviceId) =
        r.rejectedKeys serviceId claims :=
    filter_congr ht
  have hg : ((claims.keys \ r.byService serviceId).filter fun key =>
      ¬ (r.removeKeys serviceId (r.toRelease serviceId claims)).Taken serviceId key) =
        r.grantedKeys serviceId claims := by
    rw [filter_not, hr]
    rfl
  unfold grantKeys
  rw [hg, hr]
  exact Prod.ext (empty_union _) (Prod.ext (empty_union _) rfl)

end TryClaim

end ClaimRegistryInner

namespace ClaimMaps

theorem inner_insertKey (m : ClaimMaps) (key : String) (owner : ClaimOwner) :
    (m.insertKey key owner).inner =
      { m.inner with
        claims := update m.claims key (some owner)
        byService := update m.byService.get owner.serviceId
          (insert key (m.byService.get owner.serviceId)) } := by
  unfold inner insertKey
  rw [SetIndex.get_insertAt]

def Claiming.view (s : Claiming) : Finset String × Finset String × ClaimRegistryInner :=
  (s.granted, s.rejected, s.maps.inner)

section Claiming

variable {serviceId : Uuid} (owner : String → ClaimOwner)
  (howner : ∀ key, (owner key).serviceId = serviceId)

include howner in
theorem Claiming.step_eq (s : Claiming) (key : String) :
    s.step owner key =
      if s.maps.inner.Taken serviceId key then { s with rejected := insert key s.rejected }
      else ⟨insert key s.granted, s.rejected, s.maps.insertKey key (owner key)⟩ := by
  unfold Claiming.step ClaimRegistryInner.Taken ClaimRegistryInner.ownerService inner
  cases hc : s.maps.claims key with
  | none => simp [hc]
  | some => simp [hc, howner]

include howner in
theorem Claiming.view_step (s : Claiming) (key : String) :
    (s.step owner key).view = grantKeys serviceId owner s.view {key} := by
  rw [Claiming.step_eq owner howner]
  split
  · next ht => exact (grantKeys_singleton_of_taken s.view ht).symm
  · next hf =>
      have hi := inner_insertKey s.maps key (owner key)
      rw [howner] at hi
      replace hf : ¬ s.view.2.2.Taken serviceId key := hf
      unfold grantKeys
      rw [filter_singleton, filter_singleton, if_neg hf, if_pos hf]
      refine Prod.ext (union_singleton _ _).symm (Prod.ext (union_empty _).symm ?_)
      refine hi.trans ?_
      ext1
      · funext k
        by_cases hk : k = key
        · subst hk
          simp
        · simp [view, inner, hk]
      · simp [view, inner]
      · rfl
      · rfl

include howner in
theorem Claiming.view_foldl_step (s : Claiming) (keys : Finset String) :
    ((keys.sort (· ≤ ·)).foldl (Claiming.step owner) s).view =
      grantKeys serviceId owner s.view keys := by
  rw [foldl_eq_step (fun s => by simp [grantKeys]) (grantKeys_grantKeys howner)
    (Claiming.view_step owner howner), sort_toFinset]

end Claiming

theorem getD_update (desires : Uuid → Option ClaimMap) (serviceId desired) :
    (fun s => (update desires serviceId desired s).getD .empty) =
      update (fun s => (desires s).getD .empty) serviceId (desired.getD .empty) :=
  comp_update (fun c : Option ClaimMap => c.getD .empty) desires serviceId desired

section TryClaim

variable (m : ClaimMaps) (now : Int) (serviceId controllerId : Uuid) (claims : ClaimMap)

theorem view_claiming :
    (m.claiming now serviceId controllerId claims).view =
      (m.inner.grantedKeys serviceId claims, m.inner.rejectedKeys serviceId claims,
        m.inner.claimKeys now serviceId controllerId claims) := by
  have hr : (m.releasing serviceId claims).2.inner =
      m.inner.removeKeys serviceId (m.inner.toRelease serviceId claims) :=
    congrArg Prod.snd (view_foldl_releaseStep serviceId (.empty, m) _)
  have hl := Claiming.view_foldl_step
    (fun key => ⟨serviceId, controllerId, claims.tenant key, now⟩) (fun _ => rfl)
    ⟨∅, ∅, (m.releasing serviceId claims).2⟩ (claims.keys \ m.byService.get serviceId)
  refine hl.trans ?_
  rw [Claiming.view, hr]
  exact m.inner.grantKeys_removeKeys now serviceId controllerId claims

/-- A claim does to what is read from the maps what it does to the registry. -/
theorem inner_tryClaim :
    (m.tryClaim now serviceId controllerId claims).2.inner =
      (m.inner.tryClaim now serviceId controllerId claims).2 := by
  have hv := m.view_claiming now serviceId controllerId claims
  have hr : (m.claiming now serviceId controllerId claims).rejected =
      m.inner.rejectedKeys serviceId claims := congrArg (·.2.1) hv
  have hm : (m.claiming now serviceId controllerId claims).maps.inner =
      m.inner.claimKeys now serviceId controllerId claims := congrArg (·.2.2) hv
  have hp : (m.claiming now serviceId controllerId claims).maps.inner.pendingDesires =
      m.inner.pendingDesires := congrArg (·.pendingDesires) hm
  refine (inner_rebuildTenantIndexForService _ serviceId).trans
    (congrArg (rebuildTenantIndex · {serviceId}) ?_)
  ext1
  · exact congrArg (·.claims) hm
  · exact congrArg (·.byService) hm
  · exact congrArg (·.tenantServices) hm
  · have hw : (m.inner.rejectedKeys serviceId claims).filter (· ∈ claims.keys) =
        m.inner.rejectedKeys serviceId claims :=
      filter_true_of_mem fun key hk => (mem_rejectedKeys.1 hk).1.1
    rw [hr, hw]
    refine (getD_update _ serviceId _).trans (congr (congrArg (update · serviceId) hp) ?_)
    split <;> rfl

theorem same_tryClaim :
    (m.tryClaim now serviceId controllerId claims).1.Same
      (m.inner.tryClaim now serviceId controllerId claims).1 where
  granted := congrArg (·.1) (m.view_claiming now serviceId controllerId claims)
  rejected := congrArg (·.2.1) (m.view_claiming now serviceId controllerId claims)
  released := by
    refine (congrArg Prod.fst (view_foldl_releaseStep serviceId (.empty, m) _)).trans ?_
    exact get_collected m.inner serviceId _
  tenantsAfter := congrArg (·.tenantsForService serviceId)
    (m.inner_tryClaim now serviceId controllerId claims)
  tenantsBefore := rfl

end TryClaim

/-! ## Releases -/

section Release

variable (m : ClaimMaps) (serviceId : Uuid)

/-- The variables of the loop of `release`, with maps that have no set of the service. -/
def dropView (s : ClaimMap × (String → Option ClaimOwner)) :
    (String → Option Uuid) × ClaimRegistryInner :=
  view (s.1, { m with claims := s.2 })

theorem dropView_dropStep (hn : m.byService.get serviceId = ∅)
    (s : ClaimMap × (String → Option ClaimOwner)) (key) :
    m.dropView (dropStep s key) = collectKeys serviceId (m.dropView s) {key} := by
  refine Prod.ext ((get_collect { m with claims := s.2 } s.1 key).trans ?_) ?_
  · simp [collectKeys, dropView, view]
  · ext1
    · funext k
      simp [dropView, view, inner, dropStep, collectKeys, removeKeys, update_apply]
    · simp [dropView, view, inner, collectKeys, removeKeys, hn]
    · rfl
    · rfl

def dropService : ClaimMaps := { m with byService := Function.update m.byService serviceId none }

theorem get_dropService : (m.dropService serviceId).byService.get =
    update m.byService.get serviceId ∅ :=
  comp_update (fun keys : Option (Finset String) => keys.getD ∅) m.byService serviceId none

theorem dropView_dropping :
    let dropping := ((m.byService.get serviceId).sort (· ≤ ·)).foldl dropStep (.empty, m.claims)
    (m.dropService serviceId).dropView dropping =
      collectKeys serviceId (ClaimMap.empty.get, m.inner) (m.byService.get serviceId) := by
  have hn : (m.dropService serviceId).byService.get serviceId = ∅ := by
    rw [get_dropService, update_self]
  have hl := foldl_eq_step (collectKeys_empty serviceId)
    (collectKeys_collectKeys serviceId)
    (dropView_dropStep (m.dropService serviceId) serviceId hn)
    ((m.byService.get serviceId).sort (· ≤ ·)) (.empty, m.claims)
  rw [sort_toFinset] at hl
  refine hl.trans (Prod.ext rfl ?_)
  ext1
  · rfl
  · show update (m.dropService serviceId).byService.get serviceId _ =
      update m.byService.get serviceId _
    simp [get_dropService, inner, dropView, view]
  · rfl
  · rfl

theorem inner_release : (m.release serviceId).2.inner = (m.inner.release serviceId).2 := by
  have hv := m.dropView_dropping serviceId
  have hc := congrArg (·.2.claims) hv
  have hb := congrArg (·.2.byService) hv
  refine (inner_rebuildTenantIndexForService _ serviceId).trans ?_
  congr 1
  exact ClaimRegistryInner.ext hc hb rfl (getD_update _ serviceId none)

theorem get_release : (m.release serviceId).1.get = (m.inner.release serviceId).1.get :=
  (congrArg Prod.fst (m.dropView_dropping serviceId)).trans
    (m.inner.get_collected serviceId (m.byService.get serviceId))

end Release

end ClaimMaps

namespace ClaimRegistryInner

variable (r : ClaimRegistryInner) (serviceId : Uuid)

theorem ownedBy_union (A B) :
    r.ownedBy serviceId A ∪ (r.removeKeys serviceId (r.ownedBy serviceId A)).ownedBy serviceId B =
      r.ownedBy serviceId (A ∪ B) := by
  ext key
  simp only [mem_union, mem_ownedBy, ownerService_removeKeys]
  grind

/-- Removes those of the keys that the service owns, and puts their tenants into a map. -/
def collectOwned (s : (String → Option Uuid) × ClaimRegistryInner) (keys : Finset String) :
    (String → Option Uuid) × ClaimRegistryInner :=
  collectKeys serviceId s (s.2.ownedBy serviceId keys)

end ClaimRegistryInner

namespace ClaimMaps

section ReleaseKeys

variable (m : ClaimMaps) (serviceId : Uuid) (keys : Finset String)

theorem view_releaseOwnedStep (s key) :
    view (releaseOwnedStep serviceId s key) = collectOwned serviceId (view s) {key} := by
  unfold releaseOwnedStep collectOwned ownedBy
  rw [filter_singleton]
  show _ = collectKeys serviceId (view s)
    (if s.2.ownerService key = some serviceId then {key} else ∅)
  split
  · exact view_releaseStep serviceId s key
  · exact (collectKeys_empty serviceId _).symm

theorem view_foldl_releaseOwnedStep :
    view ((keys.sort (· ≤ ·)).foldl (releaseOwnedStep serviceId) (.empty, m)) =
      collectOwned serviceId (ClaimMap.empty.get, m.inner) keys := by
  rw [foldl_eq_step (show ∀ s, collectOwned serviceId s ∅ = s from collectKeys_empty serviceId)
    ?_ (view_releaseOwnedStep serviceId), sort_toFinset]
  · rfl
  · intro s A B
    unfold collectOwned
    rw [collectKeys_collectKeys, ← ownedBy_union]
    rfl

theorem get_releaseKeys :
    (m.releaseKeys serviceId keys).1.get = (m.inner.releaseKeys serviceId keys).1.get := by
  have ho : (m.inner.ownedBy serviceId keys).filter (fun key => (m.inner.claims key).isSome) =
      m.inner.ownedBy serviceId keys := by
    refine filter_true_of_mem fun key hk => ?_
    have howner := (mem_ownedBy.1 hk).2
    exact isSome_map.symm.trans (isSome_iff_exists.2 ⟨serviceId, howner⟩)
  refine (congrArg Prod.fst (m.view_foldl_releaseOwnedStep serviceId keys)).trans ?_
  refine (m.inner.get_collected serviceId _).trans ?_
  rw [ho]
  rfl

theorem inner_releaseKeys :
    (m.releaseKeys serviceId keys).2.inner = (m.inner.releaseKeys serviceId keys).2 := by
  have hk : (m.releaseKeys serviceId keys).1.keys = m.inner.ownedBy serviceId keys :=
    ClaimMap.keys_eq_of_get (m.get_releaseKeys serviceId keys)
  have hm := congrArg Prod.snd (m.view_foldl_releaseOwnedStep serviceId keys)
  show inner (if (m.releaseKeys serviceId keys).1.keys = ∅ then _ else _) =
    if m.inner.ownedBy serviceId keys = ∅ then _ else _
  rw [hk, apply_ite inner, inner_rebuildTenantIndexForService]
  split
  · exact hm
  · exact congrArg (rebuildTenantIndex · {serviceId}) hm

end ReleaseKeys

end ClaimMaps

end Uptrakit.Workload
