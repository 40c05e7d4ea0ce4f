import Uptrakit.Concurrent.Run
import Uptrakit.Workload.MapLoops

/-!
# What a claim replaces

`try_claim` is documented with "full replacement semantics": the wishes of a service take the
place of what it holds.  Where the keys of a service are those that it owns, a claim leaves the
service with exactly the wishes that no other service owned, and concerns no other service
(`tryClaim_replaces`).
-/

namespace Uptrakit.Workload

open Data Finset
open Update (Uuid)

namespace ClaimMaps

def desire (m : ClaimMaps) (serviceId : Uuid) (key : String) : Option Uuid :=
  (m.pendingDesires serviceId).bind (·.get key)

def keptKeys (m : ClaimMaps) (serviceId : Uuid) (claims : ClaimMap) : Finset String :=
  claims.keys.filter fun key => m.ownerService key = some serviceId

/-- The claim of a service replaces what it has had. -/
structure Replaced (m : ClaimMaps) (serviceId : Uuid) (claims : ClaimMap) (result : ClaimResult)
    (m' : ClaimMaps) : Prop where
  /-- The service owns the wishes that no other service owned. -/
  owns : ∀ key, m'.ownerService key = some serviceId ↔
    key ∈ claims.keys ∧ ∀ s, s ≠ serviceId → m.ownerService key ≠ some s
  byService : ∀ key, key ∈ m'.byService.get serviceId ↔ m'.ownerService key = some serviceId
  /-- A wish is granted, rejected or kept. -/
  wishes : claims.keys = result.granted ∪ result.rejected ∪ m.keptKeys serviceId claims
  granted_rejected : Disjoint result.granted result.rejected
  granted_kept : Disjoint result.granted (m.keptKeys serviceId claims)
  rejected_kept : Disjoint result.rejected (m.keptKeys serviceId claims)
  /-- The service loses what it does not wish any more. -/
  released : ∀ key, result.released.get key =
    if m.ownerService key = some serviceId ∧ key ∉ claims.keys then
      (m.claims key).map (·.tenantId)
    else none
  desires : ∀ key, m'.desire serviceId key =
    if key ∈ result.rejected then claims.get key else none
  /-- The claims of the other services stay, and they get no other. -/
  claims_other : ∀ s, s ≠ serviceId → ∀ key owner, owner.serviceId = s →
    (m'.claims key = some owner ↔ m.claims key = some owner)
  byService_other : ∀ s, s ≠ serviceId → m'.byService.get s = m.byService.get s
  desires_other : ∀ s, s ≠ serviceId → m'.pendingDesires s = m.pendingDesires s

variable (m : ClaimMaps) (now : Int) (serviceId controllerId : Uuid) (claims : ClaimMap)

theorem pendingDesires_claiming :
    (m.claiming now serviceId controllerId claims).maps.pendingDesires = m.pendingDesires := by
  have hr : ∀ (s : ClaimMap × ClaimMaps) key, s.2.pendingDesires = m.pendingDesires →
      (releaseStep serviceId s key).2.pendingDesires = m.pendingDesires :=
    fun _ _ hs => hs
  have hc : ∀ (owner : String → ClaimOwner) (s : Claiming) key,
      s.maps.pendingDesires = m.pendingDesires →
      (s.step owner key).maps.pendingDesires = m.pendingDesires := by
    intro owner s key hs
    unfold Claiming.step
    split
    · split
      · exact hs
      · exact hs
    · exact hs
  refine Concurrent.foldl_invariant (hc _) ?_ _
  exact Concurrent.foldl_invariant hr rfl _

theorem pendingDesires_tryClaim :
    (m.tryClaim now serviceId controllerId claims).2.pendingDesires =
      Function.update m.pendingDesires serviceId
        (if m.inner.rejectedKeys serviceId claims = ∅ then none
          else some ⟨(m.inner.rejectedKeys serviceId claims).filter (· ∈ claims.keys),
            claims.tenant⟩) := by
  have hr : (m.claiming now serviceId controllerId claims).rejected =
      m.inner.rejectedKeys serviceId claims :=
    congrArg (·.2.1) (m.view_claiming now serviceId controllerId claims)
  unfold tryClaim rebuildTenantIndexForService
  dsimp only
  rw [pendingDesires_claiming, hr]

variable {m}

variable (h : m.inner.Indexed)

include h

variable (key : String)

theorem claims_tryClaim_of_indexed :
    (m.tryClaim now serviceId controllerId claims).2.claims key =
      if key ∈ claims.keys ∧ m.claims key = none then
        some ⟨serviceId, controllerId, claims.tenant key, now⟩
      else if m.ownerService key = some serviceId ∧ key ∉ claims.keys then none
      else m.claims key := by
  have hi := congrArg (·.claims key) (m.inner_tryClaim now serviceId controllerId claims)
  refine hi.trans ((m.inner.claims_tryClaim now serviceId controllerId claims key).trans ?_)
  simp only [h.mem_grantedKeys_iff, h.mem_toRelease_iff]
  rfl

/-- A service other than the one that claims keeps its claims and gets no other. -/
theorem claims_tryClaim_other {key} {owner : ClaimOwner} (ho : owner.serviceId ≠ serviceId) :
    (m.tryClaim now serviceId controllerId claims).2.claims key = some owner ↔
      m.claims key = some owner := by
  rw [claims_tryClaim_of_indexed now serviceId controllerId claims h]
  split
  · next hf =>
      rw [hf.2, Option.some.injEq]
      refine iff_of_false ?_ (Option.some_ne_none owner).symm
      rintro rfl
      exact ho rfl
  · split
    · next hr =>
        refine iff_of_false (Option.some_ne_none owner).symm fun hk => ho ?_
        have hs : (m.claims key).map (·.serviceId) = some serviceId := hr.1
        rw [hk] at hs
        exact Option.some.inj hs
    · exact Iff.rfl

/-- A wish has no owner, another one, or the service itself. -/
theorem keys_eq_union :
    claims.keys = m.inner.grantedKeys serviceId claims ∪ m.inner.rejectedKeys serviceId claims ∪
      m.keptKeys serviceId claims := by
  ext key
  rw [mem_union, mem_union, h.mem_grantedKeys_iff, h.mem_rejectedKeys_iff, keptKeys,
    mem_filter, ownerService_inner, ownerService]
  show _ ↔ ((_ ∧ m.claims key = none) ∨ _) ∨ _
  cases hk : m.claims key with
  | none => simp
  | some owner =>
    by_cases hs : owner.serviceId = serviceId
    · simp [hs]
    · simp [hs]

theorem disjoint_keptKeys :
    Disjoint (m.inner.grantedKeys serviceId claims ∪ m.inner.rejectedKeys serviceId claims)
      (m.keptKeys serviceId claims) := by
  rw [disjoint_left]
  intro key hke hk
  have ho : m.inner.ownerService key = some serviceId := (mem_filter.1 hk).2
  rcases mem_union.1 hke with hg | hr
  · have hf := (h.mem_grantedKeys_iff.1 hg).2
    rw [ClaimRegistryInner.ownerService, hf] at ho
    cases ho
  · exact (ClaimRegistryInner.mem_rejectedKeys.1 hr).2.2 ho

theorem get_released_tryClaim :
    (m.tryClaim now serviceId controllerId claims).1.released.get key =
      if m.ownerService key = some serviceId ∧ key ∉ claims.keys then
        (m.claims key).map (·.tenantId)
      else none := by
  rw [(m.same_tryClaim now serviceId controllerId claims).released]
  show (if key ∈ (m.inner.toRelease serviceId claims).filter (fun key => (m.claims key).isSome) then
    some ((m.inner.tenantForKey key).getD 0) else none) = _
  simp only [mem_filter, h.mem_toRelease_iff, ownerService_inner]
  show (if _ then some (((m.claims key).map ClaimOwner.tenantId).getD 0) else none) = _
  cases hk : m.claims key with
  | none | some => simp

omit h

/-- A claim does exactly what its service wishes, as far as no other service owns the keys. -/
theorem tryClaim_replaces (m : ClaimMaps)
    (h : ∀ s key, key ∈ m.byService.get s ↔ m.ownerService key = some s) (now : Int)
    (serviceId controllerId : Uuid) (claims : ClaimMap) :
    m.Replaced serviceId claims (m.tryClaim now serviceId controllerId claims).1
      (m.tryClaim now serviceId controllerId claims).2 := by
  have hi : m.inner.Indexed := h
  have hin := m.inner_tryClaim now serviceId controllerId claims
  have hsa := m.same_tryClaim now serviceId controllerId claims
  have hg : (m.tryClaim now serviceId controllerId claims).1.granted =
      m.inner.grantedKeys serviceId claims := hsa.granted
  have hr : (m.tryClaim now serviceId controllerId claims).1.rejected =
      m.inner.rejectedKeys serviceId claims := hsa.rejected
  have hk := disjoint_keptKeys serviceId claims hi
  rw [disjoint_union_left] at hk
  refine
    { owns := ?_
      byService := ?_
      wishes := ?_
      granted_rejected := ?_
      granted_kept := hg ▸ hk.1
      rejected_kept := hr ▸ hk.2
      released := get_released_tryClaim now serviceId controllerId claims hi
      desires := ?_
      claims_other := ?_
      byService_other := ?_
      desires_other := ?_ }
  · intro key
    rw [ownerService, claims_tryClaim_of_indexed now serviceId controllerId claims hi, ownerService]
    cases hke : m.claims key with
    | none => simp
    | some owner =>
      by_cases hse : owner.serviceId = serviceId
      · by_cases hw : key ∈ claims.keys
        · simp [hse, eq_comm]
        · simp [hw]
      · simp [hse]
  · intro key
    have hi' := hi.tryClaim now serviceId controllerId claims
    rw [← hin] at hi'
    exact hi' serviceId key
  · rw [hg, hr]
    exact keys_eq_union serviceId claims hi
  · rw [hg, hr]
    exact sdiff_disjoint
  · intro key
    rw [hr, desire, pendingDesires_tryClaim]
    split
    · next hn => simp [hn]
    · by_cases hke : key ∈ m.inner.rejectedKeys serviceId claims
      · have hw := (ClaimRegistryInner.mem_rejectedKeys.1 hke).1.1
        simp [ClaimMap.get, hw]
      · simp [ClaimMap.get, hke]
  · rintro _ hs key owner rfl
    exact claims_tryClaim_other now serviceId controllerId claims hi hs
  · intro s hs
    have hby := m.inner.byService_tryClaim_of_ne now serviceId controllerId claims hs
    rw [← hin] at hby
    exact hby
  · intro s hs
    rw [pendingDesires_tryClaim, Function.update_of_ne hs]

/-- Service 1 owns `a` and `b`, and service 2 owns `c`. -/
def threeClaims : ClaimMaps where
  claims key :=
    if key = "a" ∨ key = "b" then some ⟨1, 7, 5, 10⟩
    else if key = "c" then some ⟨2, 7, 6, 11⟩ else none
  byService s := if s = 1 then some {"a", "b"} else if s = 2 then some {"c"} else none
  tenantServices t := if t = 5 then some {1} else if t = 6 then some {2} else none
  pendingDesires _ := none

theorem tryClaim_replaces_threeClaims :
    let m' := (threeClaims.tryClaim 12 1 7 ⟨{"b", "c", "d"}, fun _ => 5⟩).2
    m'.ownerService "a" ≠ some 1 ∧ m'.ownerService "b" = some 1 ∧ m'.ownerService "c" ≠ some 1 ∧
      m'.ownerService "d" = some 1 := by
  have hag : ∀ s key, key ∈ threeClaims.byService.get s ↔
      threeClaims.ownerService key = some s := by
    simp only [threeClaims, SetIndex.get, ownerService]
    grind
  have h := (tryClaim_replaces threeClaims hag 12 1 7 ⟨{"b", "c", "d"}, fun _ => 5⟩).owns
  refine ⟨fun ha => ?_, ?_, fun hc => ?_, ?_⟩
  · exact absurd ((h "a").1 ha).1 (by decide)
  · exact (h "b").2 (by simp [threeClaims, ownerService, eq_comm])
  · exact ((h "c").1 hc).2 2 (by decide) rfl
  · exact (h "d").2 (by simp [threeClaims, ownerService])

end ClaimMaps

end Uptrakit.Workload
