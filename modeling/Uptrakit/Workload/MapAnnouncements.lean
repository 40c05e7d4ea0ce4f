import Uptrakit.Workload.MapLoops

/-!
# Loops over announcements

The loops of announcements and responses of other controllers, on what is read from the maps.
A key that an announcement has got for its service, it would get again, and a response leaves
alone what it has filled in; so here too the order of the keys does not matter.
-/

namespace Uptrakit.Workload

open Data ClaimRegistryInner Finset Function SetIndex
open Update (Uuid)

/-! ## Announcements -/

namespace ClaimRegistryInner

def withdraw (serviceId : Uuid) (r : ClaimRegistryInner) (keys : Finset String) :
    ClaimRegistryInner :=
  r.removeKeys serviceId (r.ownedBy serviceId keys)

theorem withdraw_withdraw (serviceId r A B) :
    withdraw serviceId (withdraw serviceId r A) B = withdraw serviceId r (A ∪ B) := by
  unfold withdraw
  rw [removeKeys_removeKeys, ownedBy_union]

variable (r : ClaimRegistryInner) (a : Announcement) (keys : Finset String)

def winsOf : Finset String :=
  keys.filter fun key => ∀ existing ∈ r.claims key, (a.owner key).Replaces existing

def lost (serviceId : Uuid) : Finset String :=
  if serviceId = a.serviceId then ∅ else r.ownedBy serviceId (r.winsOf a keys)

def losers : Finset Uuid :=
  ((r.winsOf a keys).biUnion fun key => (r.ownerService key).toFinset).erase a.serviceId

def overrule : ClaimRegistryInner :=
  { r with
    claims := fun key => if key ∈ r.winsOf a keys then some (a.owner key) else r.claims key
    byService := fun serviceId =>
      (r.byService serviceId \ r.lost a keys serviceId) ∪
        if serviceId = a.serviceId then r.winsOf a keys else ∅ }

def announce (s : (Uuid → Finset String) × Finset Uuid × ClaimRegistryInner)
    (keys : Finset String) : (Uuid → Finset String) × Finset Uuid × ClaimRegistryInner :=
  (fun serviceId => s.1 serviceId ∪ s.2.2.lost a keys serviceId, s.2.1 ∪ s.2.2.losers a keys,
    s.2.2.overrule a keys)

section Announce

variable (r : ClaimRegistryInner) (a : Announcement)

variable {keys : Finset String} {key : String} {serviceId : Uuid}
  {s : (Uuid → Finset String) × Finset Uuid × ClaimRegistryInner}

theorem mem_winsOf :
    key ∈ r.winsOf a keys ↔
      key ∈ keys ∧ ∀ existing ∈ r.claims key, (a.owner key).Replaces existing :=
  mem_filter

variable (A B : Finset String)

theorem winsOf_union : r.winsOf a (A ∪ B) = r.winsOf a A ∪ r.winsOf a B :=
  filter_union _ A B

/-- A key that the service has got, it would get again. -/
theorem winsOf_overrule : (r.overrule a A).winsOf a B = r.winsOf a B := by
  ext key
  rw [mem_winsOf, mem_winsOf]
  refine and_congr Iff.rfl ?_
  show (∀ existing ∈ (if key ∈ r.winsOf a A then some (a.owner key) else r.claims key), _) ↔ _
  split
  · next hw =>
      refine iff_of_true ?_ ((r.mem_winsOf a).1 hw).2
      rintro existing ⟨⟩
      exact .inl rfl
  · exact Iff.rfl

theorem ownerService_overrule (A key) : (r.overrule a A).ownerService key =
      if key ∈ r.winsOf a A then some a.serviceId else r.ownerService key := by
  unfold ownerService overrule
  dsimp only
  split <;> rfl

theorem mem_lost :
    key ∈ r.lost a keys serviceId ↔
      serviceId ≠ a.serviceId ∧ key ∈ r.winsOf a keys ∧ r.ownerService key = some serviceId := by
  unfold lost
  split
  · next hs => simp [hs]
  · next ho => simp [ho, mem_ownedBy]

theorem mem_losers : serviceId ∈ r.losers a keys ↔ ∃ key, key ∈ r.lost a keys serviceId := by
  simp [losers, mem_lost]

/-- What is lost to both parts of an announcement. -/
theorem mem_lost_union {A B} : key ∈ r.lost a (A ∪ B) serviceId ↔
      key ∈ r.lost a A serviceId ∨ key ∈ (r.overrule a A).lost a B serviceId := by
  rw [mem_lost, mem_lost, mem_lost, winsOf_union, winsOf_overrule, ownerService_overrule]
  by_cases hw : key ∈ r.winsOf a A
  · simp only [hw, if_true, true_and, Option.some_inj]
    grind
  · simp [hw]

theorem overrule_empty : r.overrule a ∅ = r := by
  simp [overrule, winsOf, lost, ownedBy]

theorem overrule_overrule : (r.overrule a A).overrule a B = r.overrule a (A ∪ B) := by
  ext1
  · funext key
    show (if key ∈ (r.overrule a A).winsOf a B then _ else
      if key ∈ r.winsOf a A then _ else _) = if key ∈ r.winsOf a (A ∪ B) then _ else _
    rw [winsOf_overrule, winsOf_union]
    grind
  · funext serviceId
    ext key
    show key ∈ (((r.byService serviceId \ r.lost a A serviceId) ∪
        if serviceId = a.serviceId then r.winsOf a A else ∅) \
          (r.overrule a A).lost a B serviceId) ∪
        (if serviceId = a.serviceId then (r.overrule a A).winsOf a B else ∅) ↔
      key ∈ (r.byService serviceId \ r.lost a (A ∪ B) serviceId) ∪
        if serviceId = a.serviceId then r.winsOf a (A ∪ B) else ∅
    rw [winsOf_overrule, winsOf_union]
    simp only [mem_union, mem_sdiff, mem_lost_union]
    by_cases hs : serviceId = a.serviceId
    · simp [hs, mem_lost, or_assoc]
    · simp [hs, and_assoc]
  · rfl
  · rfl

/-- An announcement of a key that its service does not get changes nothing. -/
theorem announce_singleton_of_loses
    (h : ¬ ∀ existing ∈ s.2.2.claims key, (a.owner key).Replaces existing) :
    announce a s {key} = s := by
  have hw : s.2.2.winsOf a {key} = ∅ := by
    rw [winsOf, filter_singleton, if_neg h]
  simp [announce, overrule, lost, losers, hw, ownedBy]

theorem claims_overrule_singleton (hw : r.winsOf a {key} = {key}) :
    (r.overrule a {key}).claims = update r.claims key (some (a.owner key)) := by
  funext k
  by_cases hk : k = key
  · subst hk
    simp [overrule, hw]
  · simp [overrule, hw, hk]

theorem announce_singleton_of_free
    (h : ∀ existing ∈ s.2.2.claims key, existing.serviceId = a.serviceId) :
    announce a s {key} =
      (s.1, s.2.1,
        { s.2.2 with
          claims := update s.2.2.claims key (some (a.owner key))
          byService := update s.2.2.byService a.serviceId
            (insert key (s.2.2.byService a.serviceId)) }) := by
  have hw : s.2.2.winsOf a {key} = {key} := by
    rw [winsOf, filter_singleton, if_pos]
    exact fun existing he => .inl (h existing he)
  have hl : ∀ serviceId, s.2.2.lost a {key} serviceId = ∅ := by
    intro serviceId
    refine eq_empty_of_forall_notMem fun k hk => ?_
    obtain ⟨ho, hm, how⟩ := (s.2.2.mem_lost a).1 hk
    rw [hw, mem_singleton] at hm
    subst hm
    obtain ⟨existing, he, rfl⟩ := Option.map_eq_some_iff.1 how
    exact ho (h existing he)
  have hlo : s.2.2.losers a {key} = ∅ :=
    eq_empty_of_forall_notMem fun serviceId hm => by
      obtain ⟨k, hk⟩ := (s.2.2.mem_losers a).1 hm
      rw [hl] at hk
      exact notMem_empty k hk
  refine Prod.ext ?_ (Prod.ext ?_ ?_)
  · simp [announce, hl]
  · simp [announce, hlo]
  · ext1
    · exact claims_overrule_singleton _ a hw
    · funext serviceId
      by_cases hs : serviceId = a.serviceId
      · simp [announce, overrule, hw, hl, hs]
      · simp [announce, overrule, hl, hs]
    · rfl
    · rfl

theorem announce_singleton_of_beats {existing} (he : s.2.2.claims key = some existing)
    (ho : existing.serviceId ≠ a.serviceId) (hb : (a.owner key).Beats existing) :
    announce a s {key} =
      (update s.1 existing.serviceId (insert key (s.1 existing.serviceId)),
        insert existing.serviceId s.2.1,
        { s.2.2 with
          claims := update s.2.2.claims key (some (a.owner key))
          byService := update
            (update s.2.2.byService existing.serviceId
              ((s.2.2.byService existing.serviceId).erase key)) a.serviceId
            (insert key (s.2.2.byService a.serviceId)) }) := by
  have hw : s.2.2.winsOf a {key} = {key} := by
    rw [winsOf, filter_singleton, if_pos]
    intro owner how
    obtain rfl := Option.some.inj (he.symm.trans how)
    exact .inr hb
  have how : s.2.2.ownerService key = some existing.serviceId := by
    rw [ownerService, he, Option.map_some]
  have hl : ∀ serviceId, s.2.2.lost a {key} serviceId =
      if serviceId = existing.serviceId then {key} else ∅ := by
    intro serviceId
    ext k
    rw [mem_lost, hw]
    by_cases hk : k = key
    · subst hk
      rw [how]
      split
      · next heq => simp [heq, ho]
      · next hne => simp [Ne.symm hne]
    · split <;> simp [hk]
  have hlo : s.2.2.losers a {key} = {existing.serviceId} := by
    ext serviceId
    rw [mem_losers, hl]
    split
    · next heq => simp [heq]
    · next hne => simp [hne]
  refine Prod.ext ?_ (Prod.ext ?_ ?_)
  · funext serviceId
    by_cases heq : serviceId = existing.serviceId
    · simp [announce, hl, heq]
    · simp [announce, hl, heq]
  · simp [announce, hlo]
  · ext1
    · exact claims_overrule_singleton _ a hw
    · funext serviceId
      by_cases hs : serviceId = a.serviceId
      · simp [announce, overrule, hw, hl, hs, Ne.symm ho]
      · by_cases heq : serviceId = existing.serviceId
        · simp [announce, overrule, hl, heq, ho, sdiff_singleton_eq_erase]
        · simp [announce, overrule, hl, hs, heq]
    · rfl
    · rfl

theorem announce_empty (s : (Uuid → Finset String) × Finset Uuid × ClaimRegistryInner) :
    announce a s ∅ = s := by
  simp [announce, overrule_empty, lost, losers, winsOf, ownedBy]

theorem announce_announce (s : (Uuid → Finset String) × Finset Uuid × ClaimRegistryInner) (A B) :
    announce a (announce a s A) B = announce a s (A ∪ B) := by
  refine Prod.ext ?_ (Prod.ext ?_ (overrule_overrule s.2.2 a A B))
  · funext serviceId
    ext key
    simp only [announce, mem_union, mem_lost_union, or_assoc]
  · ext serviceId
    simp only [announce, mem_union, mem_losers, mem_lost_union, exists_or, or_assoc]

end Announce

end ClaimRegistryInner

namespace ClaimMaps

theorem inner_removeOwnedStep (serviceId m key) :
    (removeOwnedStep serviceId m key).inner = withdraw serviceId m.inner {key} := by
  unfold removeOwnedStep withdraw ownedBy
  rw [filter_singleton]
  show _ = m.inner.removeKeys serviceId (if m.ownerService key = some serviceId then {key} else ∅)
  split
  · exact inner_removeKey m serviceId key
  · exact (m.inner.removeKeys_empty serviceId).symm

theorem inner_foldl_removeOwnedStep (serviceId : Uuid) (m : ClaimMaps) (keys : Finset String) :
    ((keys.sort (· ≤ ·)).foldl (removeOwnedStep serviceId) m).inner =
      withdraw serviceId m.inner keys := by
  rw [foldl_eq_step (·.removeKeys_empty serviceId) (withdraw_withdraw serviceId)
    (inner_removeOwnedStep serviceId), sort_toFinset]

def Applying.view (s : Applying) : (Uuid → Finset String) × Finset Uuid × ClaimRegistryInner :=
  (s.revocations.get, s.revocations.keys.toFinset, s.maps.inner)

theorem Applying.view_step (a : Announcement) (s : Applying) (key : String) :
    (s.step a key).view = announce a s.view {key} := by
  unfold Applying.step
  cases hc : s.maps.claims key with
  | none =>
    rw [announce_singleton_of_free a (s := s.view)]
    · exact Prod.ext rfl (Prod.ext rfl (inner_insertKey s.maps key (a.owner key)))
    · intro existing he
      exact absurd (hc.symm.trans he) (Option.some_ne_none _).symm
  | some existing =>
    dsimp only
    split
    · next hse =>
        rw [announce_singleton_of_free a (s := s.view)]
        · exact Prod.ext rfl (Prod.ext rfl (inner_insertKey s.maps key (a.owner key)))
        · intro owner how
          obtain rfl := Option.some.inj (hc.symm.trans how)
          exact hse
    · next ho =>
        split
        · next hb =>
            rw [announce_singleton_of_beats a (s := s.view) hc ho hb]
            refine Prod.ext ?_ (Prod.ext ?_ ?_)
            · funext serviceId
              ext k
              refine MultiMap.mem_get_insertAt.trans ?_
              by_cases hs : serviceId = existing.serviceId
              · subst hs
                simp [Applying.view, or_comm]
              · simp [Applying.view, hs]
            · ext serviceId
              simp only [Applying.view, List.mem_toFinset, MultiMap.mem_keys_insertAt, mem_insert]
            · refine (inner_insertKey _ key (a.owner key)).trans ?_
              ext1
              · rfl
              · show update (get (removeAt _ _ _)) a.serviceId
                  (insert key (get (removeAt _ _ _) a.serviceId)) = _
                rw [get_removeAt, update_of_ne (Ne.symm ho)]
                rfl
              · rfl
              · rfl
        · next hl =>
            rw [announce_singleton_of_loses a (s := s.view)]
            intro ha
            exact (ha existing hc).elim ho hl

theorem Applying.view_foldl_step (a : Announcement) (s : Applying) (keys : Finset String) :
    ((keys.sort (· ≤ ·)).foldl (Applying.step a) s).view = announce a s.view keys := by
  rw [foldl_eq_step (announce_empty a) (announce_announce a) (Applying.view_step a), sort_toFinset]

section Announcement

variable (m : ClaimMaps) (a : Announcement)

theorem view_applying :
    (m.applying a).view = announce a
        (fun _ => ∅, ∅, withdraw a.serviceId m.inner a.released)
        a.claimed.keys := by
  refine (Applying.view_foldl_step a _ _).trans ?_
  rw [Applying.view, inner_foldl_removeOwnedStep]
  rfl

theorem get_applyRemoteAnnouncement :
    (m.applyRemoteAnnouncement a).1.get = (m.inner.applyRemoteAnnouncement a).1 := by
  refine (congrArg (·.1) (m.view_applying a)).trans ?_
  funext serviceId
  exact empty_union _

theorem inner_applyRemoteAnnouncement :
    (m.applyRemoteAnnouncement a).2.inner = (m.inner.applyRemoteAnnouncement a).2 := by
  have hv := m.view_applying a
  have hm : (m.applying a).maps.inner =
      (withdraw a.serviceId m.inner a.released).overrule a a.claimed.keys :=
    congrArg (·.2.2) hv
  have hk : (m.applying a).revocations.keys.toFinset =
      (withdraw a.serviceId m.inner a.released).losers a a.claimed.keys :=
    (congrArg (·.2.1) hv).trans (empty_union _)
  unfold applyRemoteAnnouncement
  rw [inner_foldl_rebuildTenantIndexForService, inner_rebuildTenantIndexForService,
    rebuildTenantIndex_rebuildTenantIndex, hm, hk]
  congr 1
  ext serviceId
  simp only [losers, mem_union, mem_singleton, mem_erase, mem_insert]
  tauto

end Announcement

/-! ## Responses -/

end ClaimMaps

namespace ClaimRegistryInner

def sync (a : SyncResponse) (r : ClaimRegistryInner) (keys : Finset String) : ClaimRegistryInner :=
  { r with
    claims := fun key => if key ∈ r.unclaimed keys then some (a.owner key) else r.claims key
    byService := fun serviceId =>
      r.byService serviceId ∪
        (r.unclaimed keys).filter fun key => (a.owner key).serviceId = serviceId
    tenantServices := fun tenantId =>
      r.tenantServices tenantId ∪
        ((r.unclaimed keys).filter fun key => (a.owner key).tenantId = tenantId).image fun key =>
          (a.owner key).serviceId }

section Sync

variable (a : SyncResponse) (r : ClaimRegistryInner)

theorem claims_sync (keys key) : (sync a r keys).claims key =
      if key ∈ r.unclaimed keys then some (a.owner key) else r.claims key := rfl

variable {keys : Finset String} {key : String}

theorem mem_byService_sync {s} : key ∈ (sync a r keys).byService s ↔
      key ∈ r.byService s ∨ (key ∈ r.unclaimed keys ∧ (a.owner key).serviceId = s) := by
  simp [sync]

theorem mem_tenantServices_sync {s t} : s ∈ (sync a r keys).tenantServices t ↔
      s ∈ r.tenantServices t ∨
        ∃ key ∈ r.unclaimed keys, (a.owner key).tenantId = t ∧ (a.owner key).serviceId = s := by
  simp [sync, and_assoc]

theorem mem_unclaimed : key ∈ r.unclaimed keys ↔ key ∈ keys ∧ r.claims key = none :=
  mem_filter

theorem mem_unclaimed_union {A B} :
    key ∈ r.unclaimed (A ∪ B) ↔ key ∈ r.unclaimed A ∨ key ∈ (sync a r A).unclaimed B := by
  rw [mem_unclaimed (sync a r A), claims_sync]
  simp only [mem_unclaimed]
  grind

theorem sync_sync (A B) : sync a (sync a r A) B = sync a r (A ∪ B) := by
  ext1
  · funext key
    rw [claims_sync, claims_sync, claims_sync]
    simp only [mem_unclaimed_union a r]
    grind
  · funext serviceId
    ext key
    rw [mem_byService_sync, mem_byService_sync, mem_byService_sync, mem_unclaimed_union a r,
      or_and_right, or_assoc]
  · funext tenantId
    ext serviceId
    simp only [mem_tenantServices_sync, mem_unclaimed_union a r, or_and_right, exists_or, or_assoc]
  · rfl

end Sync

end ClaimRegistryInner

namespace ClaimMaps

theorem inner_syncStep (a m key) : (syncStep a m key).inner = sync a m.inner {key} := by
  unfold syncStep
  cases hc : m.claims key with
  | some =>
    have hn : m.inner.unclaimed {key} = ∅ := by
      rw [unclaimed, filter_singleton, if_neg]
      exact fun hn => Option.some_ne_none _ (hc.symm.trans hn)
    simp [sync, hn]
  | none =>
    have ho : m.inner.unclaimed {key} = {key} := by
      rw [unclaimed, filter_singleton, if_pos]
      exact hc
    ext1
    · funext k
      rw [claims_sync, ho]
      show update m.claims key _ k = _
      by_cases hk : k = key
      · subst hk
        simp
      · simp [hk, inner]
    · funext serviceId
      ext k
      rw [mem_byService_sync, ho]
      refine mem_get_insertAt.trans (or_congr Iff.rfl ?_)
      grind
    · funext tenantId
      ext serviceId
      rw [mem_tenantServices_sync]
      refine mem_get_insertAt.trans (or_congr Iff.rfl ?_)
      grind
    · rfl

theorem inner_applySyncResponse (m : ClaimMaps) (a : SyncResponse) :
    (m.applySyncResponse a).inner = m.inner.applySyncResponse a := by
  unfold applySyncResponse
  rw [foldl_eq_step (fun r => by simp [sync, unclaimed]) (sync_sync a) (inner_syncStep a),
    sort_toFinset]
  rfl

end ClaimMaps

end Uptrakit.Workload
