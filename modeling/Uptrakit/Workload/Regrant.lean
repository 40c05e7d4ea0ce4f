import Uptrakit.Workload.Registry

/-!
# Granting freed keys

Keys that become free are claimed for the services that wait for them, by a claim for just
these keys.  A claim replaces all claims of its service, so the grant only adds exactly if
no waiting service owns or waits for anything else (`regrant_only_adds_iff`).  Otherwise the
service loses its other keys, and what it waits for besides is forgotten
(`regrant_replaces`).
-/

namespace Uptrakit.Workload

open ClaimRegistryInner Finset
open Update (Uuid)

inductive Freeing
  | release (serviceId : Uuid) (keys : Finset String) (announcedAt : Int)
  | disconnect (serviceId : Uuid) (announcedAt : Int)
  | announcement (a : Announcement)

namespace Freeing

/-- The keys that are given to waiting services, and the registry before. -/
def free (r : WorkloadClaimRegistry) : Freeing → Finset String × WorkloadClaimRegistry
  | release serviceId keys _ => ((r.releaseKeys serviceId keys).1.keys,
      (r.releaseKeys serviceId keys).2)
  | disconnect serviceId _ => ((r.release serviceId).1.keys, (r.release serviceId).2)
  | announcement a => (a.released, (r.applyRemoteAnnouncement a).2)

def handle (controllerId : Uuid) (clock : Uuid → ClaimTimes) (services : List Uuid)
    (r : WorkloadClaimRegistry) : Freeing → WorkloadClaimRegistry
  | release serviceId keys announcedAt =>
    (r.handleWorkloadRelease controllerId clock services serviceId keys announcedAt).2
  | disconnect serviceId announcedAt =>
    (r.releaseAllClaimsOnDisconnect controllerId clock services serviceId announcedAt).2
  | announcement a => (r.deliverAnnouncement controllerId clock services a).2

end Freeing

variable {r r' : WorkloadClaimRegistry} {controllerId : Uuid} {clock : Uuid → ClaimTimes}
  {services : List Uuid} {serviceId : Uuid} {keys : Finset String}

/-- The service waits for one of the keys. -/
def WorkloadClaimRegistry.Waits (r : WorkloadClaimRegistry) (keys : Finset String)
    (serviceId : Uuid) : Prop :=
  (r.inner.findPendingDesiresForKeys keys serviceId).keys ≠ ∅

instance : Decidable (r.Waits keys serviceId) := inferInstanceAs (Decidable (_ ≠ _))

/-- The service keeps its keys, and what it waits for besides the freed keys. -/
@[mk_iff]
structure OnlyAdds (r r' : WorkloadClaimRegistry) (keys : Finset String) (serviceId : Uuid) :
    Prop where
  keeps : r.inner.byService serviceId ⊆ r'.inner.byService serviceId
  desires : ∀ key ∈ (r.inner.pendingDesires serviceId).keys, key ∉ keys →
    key ∈ (r'.inner.pendingDesires serviceId).keys ∧
      (r'.inner.pendingDesires serviceId).tenant key =
        (r.inner.pendingDesires serviceId).tenant key

/-- The service owns and waits for nothing but the freed keys. -/
@[mk_iff]
structure OnlyFreed (r : WorkloadClaimRegistry) (keys : Finset String) (serviceId : Uuid) :
    Prop where
  owns : r.inner.byService serviceId ⊆ (r.inner.pendingDesires serviceId).keys ∩ keys
  desires : (r.inner.pendingDesires serviceId).keys ⊆ keys

/-! ## One claim -/

variable {now : Int} {claims : ClaimMap} {s : WorkloadClaimRegistry}

/-- A claim keeps the keys of its service exactly if it asks for all of them. -/
theorem subset_byService_tryClaim_iff :
    r.inner.byService serviceId ⊆
        (r.tryClaim now serviceId controllerId claims).2.inner.byService serviceId ↔
      r.inner.byService serviceId ⊆ claims.keys := by
  show _ ⊆ (r.inner.tryClaim now serviceId controllerId claims).2.byService serviceId ↔ _
  rw [byService_tryClaim_self]
  constructor
  · intro hs key hke
    by_contra hn
    have hr : key ∈ r.inner.toRelease serviceId claims :=
      mem_sdiff.2 ⟨hke, hn⟩
    rcases mem_union.1 (hs hke) with hk | hg
    · exact (mem_sdiff.1 hk).2 hr
    · exact (mem_sdiff.1 (mem_sdiff.1 hg).1).2 hke
  · intro hs key hke
    refine mem_union_left _ (mem_sdiff.2 ⟨hke, ?_⟩)
    intro hr
    exact (mem_sdiff.1 hr).2 (hs hke)

/-- After a claim, its service waits for some of the keys of the claim. -/
theorem keys_pendingDesires_tryClaim_subset :
    ((r.tryClaim now serviceId controllerId claims).2.inner.pendingDesires serviceId).keys ⊆
      claims.keys := by
  show ((r.inner.tryClaim now serviceId controllerId claims).2.pendingDesires serviceId).keys ⊆ _
  rw [pendingDesires_tryClaim_self]
  split
  · exact empty_subset _
  · intro key hk
    exact (mem_rejectedKeys.1 hk).1.1

theorem onlyAdds_tryClaim_iff :
    OnlyAdds r (r.tryClaim now serviceId controllerId
        (r.inner.findPendingDesiresForKeys keys serviceId)).2 keys serviceId ↔
      OnlyFreed r keys serviceId := by
  constructor
  · rintro ⟨hk, hd⟩
    refine ⟨subset_byService_tryClaim_iff.1 hk, ?_⟩
    intro key hke
    by_contra hf
    have hp := keys_pendingDesires_tryClaim_subset (hd key hke hf).1
    exact hf (mem_inter.1 hp).2
  · rintro ⟨ho, hd⟩
    refine ⟨subset_byService_tryClaim_iff.2 ho, ?_⟩
    intro key hke hf
    exact (hf (hd hke)).elim

/-! ## One after the other -/

/-- What a registry says about a service. -/
def SameFor (r r' : WorkloadClaimRegistry) (serviceId : Uuid) : Prop :=
  r'.inner.byService serviceId = r.inner.byService serviceId ∧
    r'.inner.pendingDesires serviceId = r.inner.pendingDesires serviceId

theorem SameFor.symm (h : SameFor r r' serviceId) : SameFor r' r serviceId :=
  ⟨h.1.symm, h.2.symm⟩

theorem SameFor.trans {r''} (h : SameFor r r' serviceId) (h' : SameFor r' r'' serviceId) :
    SameFor r r'' serviceId :=
  ⟨h'.1.trans h.1, h'.2.trans h.2⟩

theorem sameFor_tryClaim {other} (hne : serviceId ≠ other) :
    SameFor r (r.tryClaim now other controllerId claims).2 serviceId :=
  ⟨byService_tryClaim_of_ne _ _ _ _ _ hne, Function.update_of_ne hne _ _⟩

theorem sameFor_regrant {desires : Uuid → ClaimMap} (h : serviceId ∉ services) :
    SameFor r (WorkloadClaimRegistry.regrant controllerId clock desires services r).2
      serviceId := by
  induction services generalizing r with
  | nil => exact ⟨rfl, rfl⟩
  | cons _ _ ih =>
    rw [List.mem_cons, not_or] at h
    exact (sameFor_tryClaim h.1).trans (ih h.2)

/-- A service has its turn once, with everything that concerns it as in the beginning. -/
theorem exists_turn (r : WorkloadClaimRegistry) (controllerId : Uuid)
    (clock : Uuid → ClaimTimes) (desires : Uuid → ClaimMap) (hn : services.Nodup)
    (h : serviceId ∈ services) :
    ∃ turn, SameFor r turn serviceId ∧
      SameFor (turn.tryClaim (clock serviceId).claimedAt serviceId controllerId
          (desires serviceId)).2
        (WorkloadClaimRegistry.regrant controllerId clock desires services r).2 serviceId := by
  induction services generalizing r with
  | nil => cases h
  | cons other _ ih =>
    obtain ⟨ho, hn⟩ := List.nodup_cons.1 hn
    by_cases heq : serviceId = other
    · subst heq
      exact ⟨r, ⟨rfl, rfl⟩, sameFor_regrant ho⟩
    · obtain ⟨turn, hb, ha⟩ := ih _ hn ((List.mem_cons.1 h).resolve_left heq)
      exact ⟨turn, (sameFor_tryClaim heq).trans hb, ha⟩

theorem onlyAdds_congr {s'} (h : SameFor r s serviceId) (h' : SameFor r' s' serviceId) :
    OnlyAdds r r' keys serviceId ↔ OnlyAdds s s' keys serviceId := by
  rw [onlyAdds_iff, onlyAdds_iff, h.1, h.2, h'.1, h'.2]

theorem onlyFreed_congr (h : SameFor r s serviceId) :
    OnlyFreed s keys serviceId ↔ OnlyFreed r keys serviceId := by
  rw [onlyFreed_iff, onlyFreed_iff, h.1, h.2]

theorem onlyAdds_regrantKeys_iff (hn : services.Nodup) (h : serviceId ∈ services) :
    OnlyAdds r (r.regrantKeys controllerId clock services keys).2 keys serviceId ↔
      OnlyFreed r keys serviceId := by
  obtain ⟨turn, hb, ha⟩ := exists_turn r controllerId clock
    (r.inner.findPendingDesiresForKeys keys) hn h
  have hd : r.inner.findPendingDesiresForKeys keys serviceId =
      turn.inner.findPendingDesiresForKeys keys serviceId := by
    unfold findPendingDesiresForKeys
    rw [hb.2]
  rw [hd] at ha
  calc OnlyAdds r (r.regrantKeys controllerId clock services keys).2 keys serviceId
      ↔ OnlyAdds turn (turn.tryClaim (clock serviceId).claimedAt serviceId controllerId
          (turn.inner.findPendingDesiresForKeys keys serviceId)).2 keys serviceId :=
        onlyAdds_congr hb ha.symm
    _ ↔ OnlyFreed turn keys serviceId := onlyAdds_tryClaim_iff
    _ ↔ OnlyFreed r keys serviceId := onlyFreed_congr hb

theorem not_waits_empty (r : WorkloadClaimRegistry) (serviceId : Uuid) : ¬ r.Waits ∅ serviceId := by
  unfold WorkloadClaimRegistry.Waits findPendingDesiresForKeys
  rw [inter_empty]
  exact fun h => h rfl

theorem Freeing.handle_eq (r : WorkloadClaimRegistry) (freeing : Freeing) :
    freeing.handle controllerId clock services r =
      if (freeing.free r).1 = ∅ then (freeing.free r).2
      else ((freeing.free r).2.regrantKeys controllerId clock services (freeing.free r).1).2 := by
  cases freeing with
  | release | disconnect | announcement => exact apply_ite Prod.snd _ _ _

/-- However keys become free, granting them to the services that wait for them only adds, exactly
if each of these services owns and waits for nothing but the freed keys. -/
theorem regrant_only_adds_iff (r : WorkloadClaimRegistry) (freeing : Freeing)
    (controllerId : Uuid) (clock : Uuid → ClaimTimes) {services : List Uuid}
    (hn : services.Nodup)
    (hs : ∀ s, s ∈ services ↔ (freeing.free r).2.Waits (freeing.free r).1 s) :
    (∀ s, (freeing.free r).2.Waits (freeing.free r).1 s →
        OnlyAdds (freeing.free r).2 (freeing.handle controllerId clock services r)
          (freeing.free r).1 s) ↔
      ∀ s, (freeing.free r).2.Waits (freeing.free r).1 s →
        OnlyFreed (freeing.free r).2 (freeing.free r).1 s := by
  refine forall_congr' fun s => forall_congr' fun hw => ?_
  rw [Freeing.handle_eq, if_neg]
  · exact onlyAdds_regrantKeys_iff hn ((hs s).2 hw)
  · intro he
    rw [he] at hw
    exact not_waits_empty _ s hw

/-! ## Claims of a waiting service -/

def times : ClaimTimes := ⟨0, 0⟩

def wanted (keys : Finset String) : ClaimMap := ⟨keys, fun _ => 1⟩

/-- Service 1 owns `a`, service 3 owns `c`, and service 2, which wants all, owns `b`. -/
def crowded : WorkloadClaimRegistry :=
  ((WorkloadClaimRegistry.new.tryClaim 0 1 0 (wanted {"a"})).2.tryClaim 0 3 0
    (wanted {"c"})).2.tryClaim 0 2 0 (wanted {"a", "b", "c"}) |>.2

/-- When `a` becomes free and service 2 gets it, it loses `b`, and its desire for `c` is
forgotten. -/
theorem regrant_replaces :
    let freeing := Freeing.release 1 {"a"} 0
    let after := freeing.handle 0 (fun _ => times) [2] crowded
    (freeing.free crowded).2.Waits {"a"} 2 ∧
    (freeing.free crowded).2.inner.byService 2 = {"b"} ∧
    after.inner.byService 2 = {"a"} ∧
    "c" ∈ ((freeing.free crowded).2.inner.pendingDesires 2).keys ∧
    (after.inner.pendingDesires 2).keys = ∅ := by
  decide

/-- Service 1 owns `a`, and service 2 wants nothing else. -/
def queued : WorkloadClaimRegistry :=
  ((WorkloadClaimRegistry.new.tryClaim 0 1 0 (wanted {"a", "b"})).2.tryClaim 0 2 0
    (wanted {"a"})).2

theorem waits_queued_iff (s) : s ∈ [2] ↔ (queued.releaseKeys 1 {"a"}).2.Waits {"a"} s := by
  by_cases h : s = 2
  · subst h
    decide
  · have hn : (queued.releaseKeys 1 {"a"}).2.inner.pendingDesires s = .empty := by
      show queued.inner.pendingDesires s = .empty
      by_cases h1 : s = 1
      · subst h1
        rfl
      · exact (sameFor_tryClaim h).2.trans (sameFor_tryClaim h1).2
    simp [WorkloadClaimRegistry.Waits, findPendingDesiresForKeys, hn, ClaimMap.empty, h]

theorem regrant_only_adds_iff_queued :
    let freeing := Freeing.release 1 {"a"} 0
    let after := freeing.handle 0 (fun _ => times) [2] queued
    OnlyAdds (freeing.free queued).2 after {"a"} 2 ∧ after.inner.byService 2 = {"a"} := by
  have hf : (Freeing.free queued (.release 1 {"a"} 0)).1 = {"a"} := by decide
  have hi := regrant_only_adds_iff queued (.release 1 {"a"} 0) 0 (fun _ => times)
    (List.nodup_singleton 2) (by rw [hf]; exact waits_queued_iff)
  refine ⟨?_, by decide⟩
  refine hi.2 ?_ 2 ((waits_queued_iff 2).1 (by decide))
  intro s hw
  obtain rfl : s = 2 := List.mem_singleton.1 ((waits_queued_iff s).2 hw)
  exact ⟨by decide, by decide⟩

end Uptrakit.Workload
