import Uptrakit.Concurrent.Run
import Uptrakit.Workload.Regrant

/-!
# Idle keys

A service that does not get a key waits for it, and gets it when it becomes free: after a
release, after a disconnect, and after an announcement of another controller.  A claim
releases the keys of its service that it does not ask for, and those are not offered to
anyone (`idle_after_claim`).  The claim by which a waiting service gets freed keys is one of
these too.  Where no one waits for what is released in this way, no key that a service waits
for is without an owner (`no_idle_of_keepsWanted`).
-/

namespace Uptrakit.Workload

open Concurrent ClaimRegistryInner Finset List Option Function
open Update (Uuid)

/-- No service waits for a key that has no owner. -/
def WorkloadClaimRegistry.NoIdle (r : WorkloadClaimRegistry) : Prop :=
  ∀ s, ∀ key ∈ (r.inner.pendingDesires s).keys, r.inner.claims key ≠ none

inductive Event
  | claim (times : ClaimTimes) (controllerId serviceId : Uuid) (claims : ClaimMap)
  | free (controllerId : Uuid) (clock : Uuid → ClaimTimes) (services : List Uuid)
      (freeing : Freeing)

namespace Event

def handle (r : WorkloadClaimRegistry) : Event → WorkloadClaimRegistry
  | claim times controllerId serviceId claims =>
    (r.handleWorkloadClaim times controllerId serviceId claims).2
  | free controllerId clock services freeing => freeing.handle controllerId clock services r

/-- The services of an event are those that wait for the freed keys, in any order. -/
def InOrder (r : WorkloadClaimRegistry) : Event → Prop
  | claim .. => True
  | free _ _ services freeing =>
    services.Nodup ∧ ∀ s, s ∈ services ↔ (freeing.free r).2.Waits (freeing.free r).1 s

/-- No service waits for a key that a claim releases: the claim of the event, or the claim by which
a waiting service gets freed keys. -/
def KeepsWanted (r : WorkloadClaimRegistry) : Event → Prop
  | claim _ _ serviceId claims =>
    ∀ s, s ≠ serviceId → ∀ key ∈ (r.inner.pendingDesires s).keys,
      key ∉ r.inner.toRelease serviceId claims
  | free _ _ _ freeing =>
    let freed := freeing.free r
    ∀ serviceId, freed.2.Waits freed.1 serviceId →
      ∀ s, ∀ key ∈ (freed.2.inner.pendingDesires s).keys,
        key ∉ freed.2.inner.toRelease serviceId
          (freed.2.inner.findPendingDesiresForKeys freed.1 serviceId)

end Event

variable {r r' : WorkloadClaimRegistry} {controllerId : Uuid} {clock : Uuid → ClaimTimes}
  {services : List Uuid} {serviceId : Uuid} {keys : Finset String}

/-! ## One claim -/

variable {now : Int} {claims : ClaimMap} {key : String}

/-- What a service does not get has an owner. -/
theorem claims_tryClaim_of_mem_rejectedKeys (h : key ∈ r.inner.rejectedKeys serviceId claims) :
    (r.tryClaim now serviceId controllerId claims).2.inner.claims key ≠ none := by
  obtain ⟨-, hs, ho⟩ := mem_rejectedKeys.1 h
  show (r.inner.tryClaim now serviceId controllerId claims).2.claims key ≠ none
  rw [claims_tryClaim]
  split
  · exact some_ne_none _
  · rw [if_neg fun hr => ho (r.indexed.ownerService_of_mem_toRelease hr)]
    exact isSome_iff_ne_none.1 hs

/-- A key that a claim neither releases nor grants keeps its owner, or has none as before. -/
theorem claims_eq_none_of_tryClaim
    (hn : (r.tryClaim now serviceId controllerId claims).2.inner.claims key = none)
    (hk : key ∉ r.inner.toRelease serviceId claims) : r.inner.claims key = none := by
  rw [show (r.tryClaim now serviceId controllerId claims).2.inner.claims key = _ from
    claims_tryClaim r.inner now serviceId controllerId claims key] at hn
  split at hn
  · exact absurd hn (some_ne_none _)
  · exact hn

theorem mem_pendingDesires_tryClaim (h : key ∈
      ((r.tryClaim now serviceId controllerId claims).2.inner.pendingDesires serviceId).keys) :
    key ∈ r.inner.rejectedKeys serviceId claims := by
  rw [show (r.tryClaim now serviceId controllerId claims).2.inner.pendingDesires serviceId = _ from
    pendingDesires_tryClaim_self r.inner now serviceId controllerId claims] at h
  split at h
  · exact absurd h (notMem_empty key)
  · exact h

/-- A claim leaves no key idle exactly if no other service waits for what it releases. -/
theorem noIdle_tryClaim_iff (h : r.NoIdle) :
    (r.tryClaim now serviceId controllerId claims).2.NoIdle ↔
      ∀ s, s ≠ serviceId → ∀ key ∈ (r.inner.pendingDesires s).keys,
        key ∉ r.inner.toRelease serviceId claims := by
  constructor
  · intro ha s hs key hke hr
    refine ha s key ((sameFor_tryClaim hs).2.symm ▸ hke) ?_
    refine (claims_tryClaim r.inner now serviceId controllerId claims key).trans ?_
    rw [if_neg, if_pos hr]
    intro hg
    exact (mem_sdiff.1 (mem_sdiff.1 hg).1).2 (mem_sdiff.1 hr).1
  · intro hk s key hke hn
    by_cases hs : s = serviceId
    · subst hs
      exact claims_tryClaim_of_mem_rejectedKeys (mem_pendingDesires_tryClaim hke) hn
    · rw [(sameFor_tryClaim hs).2] at hke
      exact h s key hke (claims_eq_none_of_tryClaim hn (hk s hs key hke))

/-! ## Freed keys -/

theorem mem_of_claims_removeKeys {r : ClaimRegistryInner}
    (hn : (r.removeKeys serviceId keys).claims key = none) (hs : r.claims key ≠ none) :
    key ∈ keys := by
  by_contra hk
  exact hs ((if_neg hk).symm.trans hn)

/-- Only freed keys are without an owner and wanted. -/
theorem mem_free_of_idle (h : r.NoIdle) (freeing : Freeing) {s}
    (hk : key ∈ ((freeing.free r).2.inner.pendingDesires s).keys)
    (hn : (freeing.free r).2.inner.claims key = none) : key ∈ (freeing.free r).1 := by
  cases freeing with
  | release serviceId keys =>
    have hr : (r.releaseKeys serviceId keys).2.inner.claims =
        (r.inner.removeKeys serviceId (r.inner.ownedBy serviceId keys)).claims ∧
        (r.releaseKeys serviceId keys).2.inner.pendingDesires = r.inner.pendingDesires := by
      show (claims (ite _ _ _)) = _ ∧ (pendingDesires (ite _ _ _)) = _
      split <;> exact ⟨rfl, rfl⟩
    have hk : key ∈ (r.inner.pendingDesires s).keys := by
      rw [← hr.2]
      exact hk
    have hn : (r.inner.removeKeys serviceId (r.inner.ownedBy serviceId keys)).claims key =
        none := by
      rw [← hr.1]
      exact hn
    exact mem_of_claims_removeKeys hn (h s key hk)
  | disconnect serviceId =>
    have hw : key ∈ (r.inner.pendingDesires s).keys := by
      by_cases hs : s = serviceId
      · subst hs
        have hno : key ∈ (Function.update r.inner.pendingDesires s ClaimMap.empty s).keys := hk
        rw [update_self] at hno
        exact absurd hno (notMem_empty key)
      · have hsa : key ∈
          (Function.update r.inner.pendingDesires serviceId ClaimMap.empty s).keys := hk
        rwa [update_of_ne hs] at hsa
    have hso := h s key hw
    have hn : (r.inner.removeKeys serviceId (r.inner.byService serviceId)).claims key =
        none := hn
    exact mem_filter.2 ⟨mem_of_claims_removeKeys hn hso, isSome_iff_ne_none.2 hso⟩
  | announcement a =>
    have hc := (claims_applyRemoteAnnouncement r.inner a key).symm.trans hn
    split at hc
    · exact absurd hc (some_ne_none _)
    · exact (mem_ownedBy.1 (mem_of_claims_removeKeys hc (h s key hk))).1

/-- Between the grants of freed keys: each service of the list has yet to have its turn, and only
such a service waits for a key without an owner. -/
structure Granting (start : WorkloadClaimRegistry) (services : List Uuid)
    (r : WorkloadClaimRegistry) : Prop where
  same : ∀ s ∈ services, SameFor start r s
  desires : ∀ s, (r.inner.pendingDesires s).keys ⊆ (start.inner.pendingDesires s).keys
  idle : ∀ s, ∀ key ∈ (r.inner.pendingDesires s).keys, r.inner.claims key = none → s ∈ services

namespace Granting

variable {start : WorkloadClaimRegistry}

theorem tryClaim (hno : serviceId ∉ services)
    (hk : ∀ s, ∀ key ∈ (start.inner.pendingDesires s).keys,
      key ∉ start.inner.toRelease serviceId (start.inner.findPendingDesiresForKeys keys serviceId))
    (h : Granting start (serviceId :: services) r) :
    Granting start services (r.tryClaim now serviceId controllerId
      (start.inner.findPendingDesiresForKeys keys serviceId)).2 := by
  have hse := h.same serviceId mem_cons_self
  refine ⟨fun s hs => ?_, fun s => ?_, fun s key hke hn => ?_⟩
  · have hne : s ≠ serviceId := fun heq => hno (heq ▸ hs)
    exact (h.same s (mem_cons_of_mem _ hs)).trans (sameFor_tryClaim hne)
  · by_cases hs : s = serviceId
    · subst hs
      exact keys_pendingDesires_tryClaim_subset.trans inter_subset_left
    · rw [(sameFor_tryClaim hs).2]
      exact h.desires s
  · by_cases hs : s = serviceId
    · subst hs
      exact (claims_tryClaim_of_mem_rejectedKeys (mem_pendingDesires_tryClaim hke) hn).elim
    · rw [(sameFor_tryClaim hs).2] at hke
      -- What the service owns is as in the beginning, so what it releases is too.
      have hk' : key ∉ r.inner.toRelease serviceId
          (start.inner.findPendingDesiresForKeys keys serviceId) := by
        unfold toRelease
        rw [hse.1]
        exact hk s key (h.desires s hke)
      have hi := h.idle s key hke (claims_eq_none_of_tryClaim hn hk')
      exact (mem_cons.1 hi).resolve_left hs

theorem regrant (hn : services.Nodup)
    (hk : ∀ serviceId ∈ services, ∀ s, ∀ key ∈ (start.inner.pendingDesires s).keys,
      key ∉ start.inner.toRelease serviceId (start.inner.findPendingDesiresForKeys keys serviceId))
    (h : Granting start services r) :
    (WorkloadClaimRegistry.regrant controllerId clock
      (start.inner.findPendingDesiresForKeys keys) services r).2.NoIdle := by
  induction services generalizing r with
  | nil => exact fun s key hke hno => (not_mem_nil (h.idle s key hke hno)).elim
  | cons t _ ih =>
    obtain ⟨ht, hn⟩ := nodup_cons.1 hn
    exact ih hn (fun s hs => hk s (mem_cons_of_mem t hs)) (h.tryClaim ht (hk t mem_cons_self))

end Granting

/-! ## Runs -/

theorem NoIdle.handle (h : r.NoIdle) (event : Event) (ho : event.InOrder r)
    (hk : event.KeepsWanted r) : (event.handle r).NoIdle := by
  cases event with
  | claim => exact (noIdle_tryClaim_iff h).2 hk
  | free controllerId clock services freeing =>
    show (freeing.handle controllerId clock services r).NoIdle
    rw [Freeing.handle_eq]
    have hi : ∀ s, ∀ key ∈ ((freeing.free r).2.inner.pendingDesires s).keys,
        (freeing.free r).2.inner.claims key = none → key ∈ (freeing.free r).1 :=
      fun s key hke hn => mem_free_of_idle h freeing hke hn
    split
    · next hn =>
        intro s key hke hf
        have hm := hi s key hke hf
        rw [hn] at hm
        exact notMem_empty key hm
    · refine Granting.regrant ho.1 (fun serviceId hs => hk serviceId ((ho.2 serviceId).1 hs))
        ⟨fun s _ => ⟨rfl, rfl⟩, fun s => Finset.Subset.refl _, ?_⟩
      intro s key hke hf
      refine (ho.2 s).2 (nonempty_iff_ne_empty.1 ⟨key, ?_⟩)
      exact mem_inter.2 ⟨hke, hi s key hke hf⟩

/-- In every run in which no service waits for a key that a claim releases, no service waits for a
key that has no owner. -/
theorem no_idle_of_keepsWanted (events : List Event)
    (h : Meets Event.handle (fun r event => event.InOrder r ∧ event.KeepsWanted r) .new events) :
    (events.foldl Event.handle .new).NoIdle := by
  have hs : ∀ (r : WorkloadClaimRegistry) (event : Event), r.NoIdle →
      event.InOrder r ∧ event.KeepsWanted r → (event.handle r).NoIdle :=
    fun r event hr hok => NoIdle.handle hr event hok.1 hok.2
  refine foldl_invariant_of_meets hs ?_ h
  intro s key hk
  exact absurd hk (notMem_empty key)

/-- Service 1 owns `a` and `b`, service 2 waits for `a`, and service 1 releases `a`. -/
def handOver : List Event :=
  [.claim times 0 1 (wanted {"a", "b"}), .claim times 0 2 (wanted {"a"}),
    .free 0 (fun _ => times) [2] (.release 1 {"a"} 0)]

theorem no_idle_of_keepsWanted_handOver :
    (handOver.foldl Event.handle .new).NoIdle ∧
      (handOver.foldl Event.handle .new).inner.ownerService "a" = some 2 := by
  -- No claim of this run releases anything.
  have hn : ∀ {r : WorkloadClaimRegistry} {serviceId : Uuid} {claims : ClaimMap},
      r.inner.toRelease serviceId claims = ∅ → ∀ key, key ∉ r.inner.toRelease serviceId claims :=
    fun hn key hk => notMem_empty key (hn ▸ hk)
  refine ⟨no_idle_of_keepsWanted handOver ⟨⟨trivial, ?_⟩, ⟨trivial, ?_⟩, ⟨⟨?_, ?_⟩, ?_⟩, trivial⟩,
    by decide⟩
  · exact fun s _ key _ => hn (by decide) key
  · exact fun s _ key _ => hn (by decide) key
  · exact nodup_singleton 2
  · exact waits_queued_iff
  · intro serviceId hw s key _
    obtain rfl : serviceId = 2 := List.mem_singleton.1 ((waits_queued_iff serviceId).2 hw)
    exact hn (by decide) key

/-- Service 1 owns `a`, service 2 waits for it, and service 1 claims nothing instead of `a`. -/
def handedBack : List Event :=
  [.claim times 0 1 (wanted {"a"}), .claim times 0 2 (wanted {"a"}), .claim times 0 1 (wanted ∅)]

/-- No one is told that `a` is free. -/
theorem idle_after_claim :
    Meets Event.handle (fun r event => event.InOrder r) .new handedBack ∧
      "a" ∈ ((handedBack.foldl Event.handle .new).inner.pendingDesires 2).keys ∧
      (handedBack.foldl Event.handle .new).inner.claims "a" = none := by
  refine ⟨⟨trivial, trivial, trivial, trivial⟩, by decide, by decide⟩

end Uptrakit.Workload
