import Uptrakit.Concurrent.Election
import Uptrakit.Workload.Registry

/-!
# Agreement on the owner of a key

Services at several controllers claim a free key at about the same time.  Every controller
stores the claim of its own service and announces it, and the earlier claim wins where the
announcements meet.  But the time that is announced is read after the one that is stored.

All controllers end with the same owner exactly if one claim is announced before any other
one is stored (`controllers_agree_iff`).  Two claims that overlap each win at their own
controller (`overlapping_claims`).
-/

namespace Uptrakit.Workload

open Update (Uuid)
open Concurrent

structure Controller where
  id : Uuid
  registry : WorkloadClaimRegistry
  serviceId : Uuid
  claims : ClaimMap
  times : ClaimTimes

namespace Controller

def handled (c : Controller) : ClaimReply × WorkloadClaimRegistry :=
  c.registry.handleWorkloadClaim c.times c.id c.serviceId c.claims

def announceTo (r : WorkloadClaimRegistry) (c : Controller) : WorkloadClaimRegistry :=
  match c.handled.1.announcement with
  | none => r
  | some a => (r.applyRemoteAnnouncement a).2

/-- The owner of a key as the controller itself stores it. -/
def stored (c : Controller) (key : String) : ClaimOwner :=
  ⟨c.serviceId, c.id, c.claims.tenant key, c.times.claimedAt⟩

/-- The owner of a key as the others store it. -/
def announced (c : Controller) (key : String) : ClaimOwner :=
  ⟨c.serviceId, c.id, c.claims.tenant key, c.times.announcedAt⟩

/-- The claim is announced before the other one is stored; at the same time, the service is the
smaller one. -/
def Precedes (c c' : Controller) : Prop :=
  c.times.announcedAt < c'.times.claimedAt ∨
    c.times.announcedAt = c'.times.claimedAt ∧ c.serviceId < c'.serviceId

instance : DecidableRel Precedes := fun c c' =>
  inferInstanceAs (Decidable (c.times.announcedAt < c'.times.claimedAt ∨ _))

variable {c : Controller} {key : String} {r : WorkloadClaimRegistry}

variable (hfree : c.registry.inner.claims key = none)

include hfree

variable (hkey : key ∈ c.claims.keys)

include hkey

theorem mem_grantedKeys : key ∈ c.registry.inner.grantedKeys c.serviceId c.claims :=
  c.registry.indexed.mem_grantedKeys_iff.2 ⟨hkey, hfree⟩

theorem claims_handled : c.handled.2.inner.claims key = some (c.stored key) := by
  show (c.registry.inner.tryClaim _ _ _ _).2.claims key = _
  rw [ClaimRegistryInner.claims_tryClaim, if_pos (mem_grantedKeys hfree hkey)]
  rfl

theorem exists_announcement :
    ∃ a : Announcement, c.handled.1.announcement = some a ∧ key ∈ a.claimed.keys ∧
      key ∉ a.released ∧ a.owner key = c.announced key := by
  have hg := mem_grantedKeys hfree hkey
  have hs := claims_handled hfree hkey
  refine ⟨_, if_neg ?_, ?_, ?_, ?_⟩
  · rintro ⟨he, -⟩
    have hm : key ∈ (∅ : Finset String) := he ▸ hg
    cases hm
  · refine Finset.mem_filter.2 ⟨hg, ?_⟩
    show ((c.handled.2.inner.claims key).map (·.tenantId)).isSome = true
    rw [hs]
    rfl
  · intro hr
    have hre := (Finset.mem_filter.1 hr).1
    exact (Finset.mem_sdiff.1 hre).2 hkey
  · show ClaimOwner.mk _ _ (((c.handled.2.inner.claims key).map (·.tenantId)).getD 0) _ = _
    rw [hs]
    rfl

theorem claims_announceTo {owner} (ho : r.inner.claims key = some owner) :
    (announceTo r c).inner.claims key =
      some (if (c.announced key).Replaces owner then c.announced key else owner) := by
  obtain ⟨a, ha, hc, hre, han⟩ := exists_announcement hfree hkey
  unfold announceTo
  rw [ha]
  show (r.inner.applyRemoteAnnouncement a).2.claims key = _
  rw [ClaimRegistryInner.claims_applyRemoteAnnouncement]
  have hf : (r.inner.removeKeys a.serviceId
      (r.inner.ownedBy a.serviceId a.released)).claims key = some owner := by
    refine (if_neg ?_).trans ho
    intro hm
    exact hre (ClaimRegistryInner.mem_ownedBy.1 hm).1
  have hw : key ∈ (r.inner.removeKeys a.serviceId
      (r.inner.ownedBy a.serviceId a.released)).remoteWins a ↔
        (c.announced key).Replaces owner := by
    rw [ClaimRegistryInner.remoteWins, Finset.mem_filter, hf, han]
    constructor
    · rintro ⟨-, hal⟩
      exact hal owner rfl
    · intro hr
      refine ⟨hc, ?_⟩
      rintro _ ⟨⟩
      exact hr
  rw [hf, han]
  by_cases hr : (c.announced key).Replaces owner
  · rw [if_pos hr, if_pos (hw.2 hr)]
  · rw [if_neg hr, if_neg fun hm => hr (hw.1 hm)]

end Controller

/-! ## Any number of controllers -/

section Agreement

variable {ι : Type*} {controllers : ι → Controller} {key : String}

/-- The registry of a controller, after its own claim and the announcements in some order. -/
def finalRegistry (controllers : ι → Controller) (deliveries : ι → List ι) (i : ι) :
    WorkloadClaimRegistry :=
  (deliveries i).foldl (fun r j => Controller.announceTo r (controllers j))
    (controllers i).handled.2

/-- The owner of the key is elected among the announced claims. -/
theorem claims_finalRegistry (hfree : ∀ i, (controllers i).registry.inner.claims key = none)
    (hkey : ∀ i, key ∈ (controllers i).claims.keys) (deliveries : ι → List ι) (i) :
    (finalRegistry controllers deliveries i).inner.claims key =
      some (elect ClaimOwner.Replaces ((controllers i).stored key)
        ((deliveries i).map fun j => (controllers j).announced key)) := by
  have hs := Controller.claims_handled (hfree i) (hkey i)
  unfold finalRegistry
  generalize (controllers i).handled.2 = r at hs ⊢
  generalize (controllers i).stored key = owner at hs ⊢
  induction deliveries i generalizing r owner with
  | nil => exact hs
  | cons j _ ih =>
    exact ih _ _ (Controller.claims_announceTo (hfree j) (hkey j) hs)

/-- Whose claim the owner is. -/
structure Of (c : Controller) (key : String) (owner : ClaimOwner) : Prop where
  serviceId : owner.serviceId = c.serviceId
  controllerId : owner.controllerId = c.id
  tenantId : owner.tenantId = c.claims.tenant key
  claimedAt : c.times.claimedAt ≤ owner.claimedAt ∧ owner.claimedAt ≤ c.times.announcedAt

/-- A claim that precedes another one beats it, and is not beaten by it. -/
theorem Controller.Precedes.beats {c : Controller} {c'} (h : c.Precedes c') {owner owner'}
    (ho : Of c key owner) (ho' : Of c' key owner') :
    owner.Beats owner' ∧ ¬ owner'.Beats owner := by
  obtain ⟨hs, -, -, _⟩ := ho
  obtain ⟨hs', -, -, _⟩ := ho'
  unfold ClaimOwner.Beats
  rw [hs, hs']
  rcases h with hlt | ⟨heq, hlt⟩
  · constructor
    · exact .inl (by omega)
    · rintro (hb | ⟨_, -⟩) <;> omega
  · constructor
    · by_cases hlt' : owner.claimedAt < owner'.claimedAt
      · exact .inl hlt'
      · exact .inr ⟨by omega, hlt⟩
    · rintro (hb | ⟨-, hlt'⟩)
      · omega
      · exact Nat.lt_asymm hlt hlt'

variable {deliveries : List ι}

variable (key) in
/-- A controller ends with the claim of its own service, or with one that precedes it. -/
theorem elect_eq_or_precedes (hs : Function.Injective fun i => (controllers i).serviceId) {i}
    (hd : ∀ j ∈ deliveries, j ≠ i) : elect ClaimOwner.Replaces ((controllers i).stored key)
        (deliveries.map fun j => (controllers j).announced key) = (controllers i).stored key ∨
      ∃ m, (controllers m).Precedes (controllers i) ∧
        elect ClaimOwner.Replaces ((controllers i).stored key)
          (deliveries.map fun j => (controllers j).announced key) =
            (controllers m).announced key := by
  refine elect_induction (R := fun owner => owner = (controllers i).stored key ∨
    ∃ m, (controllers m).Precedes (controllers i) ∧ owner = (controllers m).announced key)
    (.inl rfl) ?_
  rintro owner ho _ hc hr
  obtain ⟨j, hj, rfl⟩ := List.mem_map.1 hc
  refine .inr ⟨j, ?_, rfl⟩
  rcases ho with rfl | ⟨m, hm, rfl⟩
  · rcases hr with hsa | hb
    · exact (hd j hj (hs hsa).symm).elim
    · exact hb
  · rcases hr with hsa | hb
    · rwa [← hs hsa]
    · -- The order of times and services is transitive.
      rcases hb with hlt | ⟨heq, hlt⟩
      · rcases hm with hlt' | ⟨heq', -⟩
        · exact .inl (lt_trans hlt hlt')
        · exact .inl (lt_of_lt_of_eq hlt heq')
      · rcases hm with hlt' | ⟨heq', hlt'⟩
        · exact .inl (lt_of_eq_of_lt heq hlt')
        · exact .inr ⟨Eq.trans heq heq', lt_trans hlt hlt'⟩

variable (key) in
/-- A claim that precedes all others is the one that every controller ends with. -/
theorem elect_of_precedes (hse : Function.Injective fun i => (controllers i).serviceId)
    (ht : ∀ i, (controllers i).times.claimedAt ≤ (controllers i).times.announcedAt) {m}
    (hm : ∀ i, i ≠ m → (controllers m).Precedes (controllers i)) {i}
    (hd : m ≠ i → m ∈ deliveries) :
    Of (controllers m) key (elect ClaimOwner.Replaces ((controllers i).stored key)
      (deliveries.map fun j => (controllers j).announced key)) := by
  have hs : ∀ j, Of (controllers j) key ((controllers j).stored key) :=
    fun j => ⟨rfl, rfl, rfl, le_refl _, ht j⟩
  have ha : ∀ j, Of (controllers j) key ((controllers j).announced key) :=
    fun j => ⟨rfl, rfl, rfl, ht j, le_refl _⟩
  refine elect_wins (R := fun owner => ∃ j, Of (controllers j) key owner) ?_ ?_ ⟨i, hs i⟩ ?_ ?_
  · -- The first claim replaces every other one.
    rintro w c - hw ⟨j, hj⟩ hc
    have hjm : j ≠ m := by
      rintro rfl
      exact hc hj
    exact .inr ((hm j hjm).beats hw hj).1
  · rintro c w ⟨j, hj⟩ hc - hw
    have hjm : j ≠ m := by
      rintro rfl
      exact hc hj
    rintro (hsa | hb)
    · rw [hw.serviceId, hj.serviceId] at hsa
      exact hjm (hse hsa.symm)
    · exact ((hm j hjm).beats hw hj).2 hb
  · intro c hc
    obtain ⟨j, -, rfl⟩ := List.mem_map.1 hc
    exact ⟨j, ha j⟩
  · by_cases him : m = i
    · subst him
      exact .inl (hs m)
    · exact .inr ⟨_, List.mem_map_of_mem (hd him), ha m⟩

/-- All controllers end with the same owner of a free key, in whatever order they receive the
announcements, exactly if one of the claims is announced before any other one is stored. -/
theorem controllers_agree_iff [Nonempty ι]
    (hs : Function.Injective fun i => (controllers i).serviceId)
    (hfree : ∀ i, (controllers i).registry.inner.claims key = none)
    (hkey : ∀ i, key ∈ (controllers i).claims.keys)
    (ht : ∀ i, (controllers i).times.claimedAt ≤ (controllers i).times.announcedAt)
    {deliveries : ι → List ι} (hd : ∀ i j, j ∈ deliveries i ↔ j ≠ i) :
    (∃ owner, ∀ i, ((finalRegistry controllers deliveries i).inner.claims key).map
        (fun owner => (owner.serviceId, owner.controllerId, owner.tenantId)) = some owner) ↔
      ∃ m, ∀ i, i ≠ m → (controllers m).Precedes (controllers i) := by
  simp only [claims_finalRegistry hfree hkey, Option.map_some, Option.some_inj]
  constructor
  · rintro ⟨owner, ho⟩
    have hen : ∀ i, (∃ m, (controllers m).serviceId = owner.1) ∧
        (owner.1 = (controllers i).serviceId ∨
          ∃ m, owner.1 = (controllers m).serviceId ∧ (controllers m).Precedes (controllers i)) := by
      intro i
      rw [← ho i]
      rcases elect_eq_or_precedes key hs (fun j hj => (hd i j).1 hj) with h | ⟨m, hm, h⟩
      · rw [h]
        exact ⟨⟨i, rfl⟩, .inl rfl⟩
      · rw [h]
        exact ⟨⟨m, rfl⟩, .inr ⟨m, rfl, hm⟩⟩
    obtain ⟨m, hm⟩ := (hen (Classical.arbitrary ι)).1
    refine ⟨m, ?_⟩
    intro i him
    rcases (hen i).2 with how | ⟨j, hj, _⟩
    · exact (him (hs (how.symm.trans hm.symm))).elim
    · rwa [hs (hm.trans hj)]
  · rintro ⟨m, hm⟩
    refine ⟨((controllers m).serviceId, (controllers m).id, (controllers m).claims.tenant key), ?_⟩
    intro i
    have he := elect_of_precedes key hs ht hm (fun hne => (hd i m).2 hne)
    rw [he.serviceId, he.controllerId, he.tenantId]

end Agreement

/-! ## Overlapping claims -/

/-- A controller with an empty registry whose service claims `k`. -/
def claimant (i : Nat) (times : ClaimTimes) : Controller :=
  ⟨10 + i, .new, i, ⟨{"k"}, fun _ => 5⟩, times⟩

/-- Each claim is stored before the other one is announced. -/
def overlapping : Bool → Controller
  | false => claimant 1 ⟨0, 10⟩
  | true => claimant 2 ⟨5, 15⟩

/-- Both controllers keep their own service. -/
theorem overlapping_claims :
    let final := finalRegistry overlapping fun i => [!i]
    (final false).inner.ownerService "k" = some 1 ∧
      (final true).inner.ownerService "k" = some 2 := by
  decide

/-- The second claim is stored when the first one is announced. -/
def inOrder : Bool → Controller
  | false => claimant 1 ⟨0, 5⟩
  | true => claimant 2 ⟨5, 15⟩

theorem controllers_agree_iff_inOrder :
    (∀ i, i ≠ false → (inOrder false).Precedes (inOrder i)) ∧
      ∃ owner, ∀ i, ((finalRegistry inOrder (fun i => [!i]) i).inner.claims "k").map
        (fun owner => (owner.serviceId, owner.controllerId, owner.tenantId)) = some owner := by
  have hf : ∀ i, i ≠ false → (inOrder false).Precedes (inOrder i) := by decide
  refine ⟨hf, (controllers_agree_iff ?_ ?_ ?_ ?_ ?_).2 ⟨false, hf⟩⟩ <;> decide

end Uptrakit.Workload
