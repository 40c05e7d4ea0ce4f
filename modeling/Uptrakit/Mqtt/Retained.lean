import Mathlib.Data.Set.Basic
import Uptrakit.Concurrent.Run
import Uptrakit.Mqtt.TenantManager

/-!
# Retained attributes topics

The pairs of an item and a host whose attributes topic the broker retains, against the
pairs of the cached state.  A full state that arrives while the client is connected makes
them equal, and so does a reconnect if nothing is retained for a pair that has gone
(`retained_eq_cached`).  What was removed while the client was disconnected is never
cleared (`removed_while_disconnected`).
-/

namespace Uptrakit.Mqtt

open Update (Uuid)
open Wire Data Concurrent List TenantManager ClientState

inductive Event
  | fullState (states : PartialSoftwareStates)
  | reconnected
  | disconnected

def TenantManager.handle (m : TenantManager) : Event → TenantManager
  | .fullState states => m.applyFullStates states
  | .reconnected => m.handleReconnected
  | .disconnected => m.handleDisconnected

def ClientState.retainedPairs (client : ClientState) : Set (Uuid × Uuid) :=
  {pair | (client.retained (.item .attributes pair.1 pair.2)).isSome}

def TenantManager.cachedPairs (m : TenantManager) : Set (Uuid × Uuid) :=
  {pair | pair ∈ pairs (m.softwareStates.getD [])}

/-- While the client is disconnected, a full state has every pair of the cached state
whose attributes topic is retained. -/
def keepsRetained (m : TenantManager) : Event → Bool
  | .fullState states =>
    m.client.connected ||
      (computeRemovedItems m.softwareStates states.items).all fun pair =>
        (m.client.retained (.item .attributes pair.1 pair.2)).isNone
  | .reconnected | .disconnected => true

/-! ## Publishing while connected -/

namespace ClientState

variable {client : ClientState}

def after (client : ClientState) (messages : List Publish) : ClientState :=
  { client with
    retained := writeAll client.retained (messages.map fun m => (m.1, m.2.retained)) }

theorem after_append (client : ClientState) (messages messages' : List Publish) :
    client.after (messages ++ messages') = (client.after messages).after messages' := by
  simp only [after, map_append, writeAll_append]

variable (h : client.connected = true)

include h

theorem publishRetained_of_connected (message) :
    client.publishRetained message = some (client.after [message]) := if_pos h

theorem publishOrAbort_of_connected (messages) :
    client.publishOrAbort messages = client.after messages := by
  induction messages generalizing client with
  | nil => rfl
  | cons _ _ ih =>
    rw [publishOrAbort, publishRetained_of_connected h]
    exact ih h

theorem publishBestEffort_of_connected (messages) :
    client.publishBestEffort messages = client.after messages := by
  induction messages generalizing client with
  | nil => rfl
  | cons _ _ ih =>
    rw [publishBestEffort, publishRetained_of_connected h]
    exact ih h

theorem publishEach_of_connected (calls) :
    client.publishEach calls = client.after calls.flatten := by
  induction calls generalizing client with
  | nil => rfl
  | cons call _ ih =>
    have hc := publishOrAbort_of_connected h call
    rw [publishEach, foldl_cons, hc, List.flatten_cons, after_append]
    exact ih h

end ClientState

/-! ## Messages about attributes -/

def Publish.attributes? : Publish → Option ((Uuid × Uuid) × Payload)
  | (.item .attributes itemId hostId, payload) => some ((itemId, hostId), payload)
  | _ => none

def ClientState.attributes (client : ClientState) (pair : Uuid × Uuid) : Option Payload :=
  client.retained (.item .attributes pair.1 pair.2)

variable (client : ClientState)

theorem ClientState.attributes_after (messages) : (client.after messages).attributes =
      writeAll client.attributes
        ((messages.filterMap Publish.attributes?).map fun w => (w.1, w.2.retained)) := by
  induction messages generalizing client with
  | nil => rfl
  | cons message _ ih =>
    rw [← singleton_append, after_append, ih, filterMap_append, map_append, writeAll_append]
    congr 1
    obtain ⟨topic, payload⟩ := message
    funext pair
    cases hm : Publish.attributes? (topic, payload) with
    | none =>
      rw [filterMap_cons_none hm]
      refine Function.update_of_ne ?_ _ _
      rintro rfl
      cases hm
    | some =>
      cases topic with
      | host => cases hm
      | item kind itemId hostId =>
        cases kind with
        | attributes =>
          by_cases hp : pair = (itemId, hostId)
          · subst hp
            simp [attributes, after, Publish.attributes?]
          · show _ = Function.update client.attributes (itemId, hostId) _ pair
            rw [Function.update_of_ne hp]
            refine Function.update_of_ne ?_ _ _
            rintro ⟨⟩
            exact hp rfl
        | state | latestVersion | discoveryConfig => cases hm

def attributesOf (entry : SoftwareStateItem × SoftwareStateHostEntry) :
    (Uuid × Uuid) × Payload :=
  ((entry.1.softwareItemId, entry.2.hostId),
    .itemAttributes entry.2.updateInProgress entry.2.updateCategory entry.2.releaseDate
      entry.2.lastCheckedAt)

section Messages

variable (haDiscovery : Bool) (metadata : List HostStateMetadata)

theorem attributes_publishSoftwareStates (published entries) :
    (publishSoftwareStates haDiscovery metadata published entries).flatten.filterMap
      Publish.attributes? = entries.map attributesOf := by
  induction entries generalizing published with
  | nil => rfl
  | cons entry _ ih =>
    obtain ⟨item, host⟩ := entry
    have hi : (publishHostIdentity host.hostId host.hostname
        host.friendlyName).filterMap Publish.attributes? = [] := rfl
    have hc : (publishItemHaConfig metadata item host).filterMap
        Publish.attributes? = [] := rfl
    have hs : (publishItemStateTopics item host).filterMap Publish.attributes? =
        [attributesOf (item, host)] := rfl
    rw [publishSoftwareStates]
    split <;> split <;>
      simp [hi, hc, hs, ih]

theorem attributes_publishHostSummaryStates (summaries) :
    (publishHostSummaryStates haDiscovery metadata summaries).flatten.filterMap
      Publish.attributes? = [] := by
  induction summaries with
  | nil => rfl
  | cons _ _ ih =>
    rw [publishHostSummaryStates, flatMap_cons, flatten_append, filterMap_append]
    rw [publishHostSummaryStates] at ih
    rw [ih]
    cases haDiscovery <;> rfl

theorem attributes_publishHostMetadata :
    (publishHostMetadata haDiscovery metadata).filterMap Publish.attributes? = [] := by
  rw [publishHostMetadata, filterMap_flatMap, flatMap_eq_nil_iff]
  intro host _
  cases haDiscovery <;> rfl

theorem attributes_cleanupRemovedHostSummaries (removed) :
    (cleanupRemovedHostSummaries haDiscovery removed).filterMap Publish.attributes? = [] := by
  rw [cleanupRemovedHostSummaries, filterMap_flatMap, flatMap_eq_nil_iff]
  intro hostId _
  cases haDiscovery <;> rfl

theorem attributes_cleanupRemovedHostMetadata (removed) :
    (cleanupRemovedHostMetadata haDiscovery removed).filterMap Publish.attributes? = [] := by
  rw [cleanupRemovedHostMetadata, filterMap_flatMap, flatMap_eq_nil_iff]
  intro hostId _
  cases haDiscovery <;> rfl

theorem attributes_cleanupRemovedItems (removed) :
    (cleanupRemovedItems haDiscovery removed).filterMap Publish.attributes? =
      removed.map fun pair => (pair, .text "") := by
  rw [cleanupRemovedItems, filterMap_flatMap, map_eq_flatMap]
  congr 1
  funext pair
  cases haDiscovery <;> rfl

/-- Everything that is published has the attributes of the items, and no others. -/
theorem attributes_publications (items summaries) :
    (publications haDiscovery items summaries metadata).flatten.filterMap
      Publish.attributes? = (entries items).map attributesOf := by
  simp only [publications, flatten_append, filterMap_append,
    attributes_publishSoftwareStates, attributes_publishHostSummaryStates, List.flatten_cons,
    flatten_nil, append_nil, attributes_publishHostMetadata]

/-- What is cleared has the attributes of the pairs that were removed. -/
theorem attributes_cleanup (m : TenantManager) (states : PartialSoftwareStates) :
    (m.cleanup states).filterMap Publish.attributes? =
      (computeRemovedItems m.softwareStates states.items).map fun pair => (pair, .text "") := by
  simp only [cleanup, filterMap_append, attributes_cleanupRemovedItems,
    attributes_cleanupRemovedHostSummaries, attributes_cleanupRemovedHostMetadata,
    append_nil]

end Messages

/-! ## Sets of pairs -/

variable {pair : Uuid × Uuid} {messages : List Publish}

theorem mem_retainedPairs {client : ClientState} :
    pair ∈ client.retainedPairs ↔ (client.attributes pair).isSome := Iff.rfl

theorem pairs_eq_map_entries (items) :
    pairs items = (entries items).map fun entry => (attributesOf entry).1 := by
  simp only [entries, map_flatMap, map_map]
  rfl

theorem retainedPairs_publish {items}
    (hm : messages.filterMap Publish.attributes? = (entries items).map attributesOf) :
    (client.after messages).retainedPairs = client.retainedPairs ∪ {pair | pair ∈ pairs items} := by
  have hk : (((entries items).map attributesOf).map fun w => (w.1, w.2.retained)).map
      Prod.fst = pairs items := by
    rw [pairs_eq_map_entries, map_map, map_map]
    rfl
  ext pair
  rw [mem_retainedPairs, attributes_after, hm]
  constructor
  · intro hs
    by_cases hp : pair ∈ pairs items
    · exact .inr hp
    · rw [writeAll_of_notMem (hk ▸ hp)] at hs
      exact .inl hs
  · intro hp
    refine writeAll_of_forall (p := fun value : Option Payload => value.isSome) ?_ ?_
    · intro write hwr _
      obtain ⟨w, hw, rfl⟩ := mem_map.1 hwr
      obtain ⟨_, -, rfl⟩ := mem_map.1 hw
      rfl
    · rw [hk]
      exact hp.symm

theorem retainedPairs_clear {removed : List (Uuid × Uuid)}
    (hm : messages.filterMap Publish.attributes? = removed.map fun pair => (pair, .text "")) :
    (client.after messages).retainedPairs = client.retainedPairs \ {pair | pair ∈ removed} := by
  have hk : ((removed.map fun pair => (pair, Payload.text "")).map
      fun w => (w.1, w.2.retained)).map Prod.fst = removed := by
    rw [map_map, map_map]
    exact map_id removed
  ext pair
  rw [mem_retainedPairs, attributes_after, hm]
  by_cases hp : pair ∈ removed
  · have hn : writeAll client.attributes ((removed.map fun pair => (pair, Payload.text "")).map
        fun w => (w.1, w.2.retained)) pair = none := by
      refine writeAll_of_forall (p := fun value => value = none) ?_ (.inl ?_)
      · intro write hwr _
        obtain ⟨w, hw, rfl⟩ := mem_map.1 hwr
        obtain ⟨_, -, rfl⟩ := mem_map.1 hw
        rfl
      · rw [hk]
        exact hp
    rw [hn]
    exact ⟨fun hs => (Bool.false_ne_true hs).elim, fun hd => absurd hp hd.2⟩
  · rw [writeAll_of_notMem (by rwa [hk])]
    exact ⟨fun hs => ⟨hs, hp⟩, fun hd => hd.1⟩

theorem mem_computeRemovedItems {m : TenantManager} {new} :
    pair ∈ computeRemovedItems m.softwareStates new ↔ pair ∈ m.cachedPairs ∧ pair ∉ pairs new := by
  show _ ↔ pair ∈ pairs (m.softwareStates.getD []) ∧ _
  cases m.softwareStates with
  | none => simp [computeRemovedItems, pairs]
  | some => simp [computeRemovedItems]

/-! ## Runs -/

/-- Nothing is retained for a pair that is not cached; while the client is connected, the
attributes of all cached pairs are retained. -/
structure Mirrors (m : TenantManager) : Prop where
  subset : m.client.retainedPairs ⊆ m.cachedPairs
  supset : m.client.connected = true → m.cachedPairs ⊆ m.client.retainedPairs

namespace Mirrors

variable {m : TenantManager}

theorem new (haDiscovery) : Mirrors (new haDiscovery) :=
  ⟨fun _ hp => (Bool.false_ne_true hp).elim, fun h => (Bool.false_ne_true h).elim⟩

variable (h : Mirrors m)

include h

theorem eq_of_connected (hc : m.client.connected = true) :
    m.client.retainedPairs = m.cachedPairs :=
  h.subset.antisymm (h.supset hc)

omit h in
theorem of_eq (h : m.client.retainedPairs = m.cachedPairs) : Mirrors m :=
  ⟨h.subset, fun _ => h.superset⟩

theorem applyFullStates (hc : m.client.connected = true) (states) :
    Mirrors (m.applyFullStates states) := by
  refine of_eq ?_
  have hcl : (m.applyFullStates states).client =
      (m.client.after (m.cleanup states)).after (publications
        m.client.haDiscovery states.items states.hostSummaries states.hosts).flatten := by
    have hcle := publishBestEffort_of_connected hc (m.cleanup states)
    have hp := publishEach_of_connected
      (show (m.client.after (m.cleanup states)).connected = true from hc)
    rw [← hp, ← hcle]
    exact if_pos hc
  rw [hcl, retainedPairs_publish _ (attributes_publications ..),
    retainedPairs_clear _ (attributes_cleanup ..), h.eq_of_connected hc]
  ext pair
  constructor
  · rintro (⟨hca, hk⟩ | hn)
    · by_contra hn
      exact hk (mem_computeRemovedItems.2 ⟨hca, hn⟩)
    · exact hn
  · exact .inr

/-- A full state that keeps what is retained, while the client is disconnected. -/
theorem applyFullStates_of_disconnected (hc : m.client.connected = false) {states}
    (hk : keepsRetained m (.fullState states) = true) : Mirrors (m.applyFullStates states) := by
  have hcl : (m.applyFullStates states).client = m.client := if_neg (by simp [hc])
  refine ⟨?_, ?_⟩
  · rw [hcl]
    intro pair hp
    by_contra hne
    have hr := mem_computeRemovedItems.2 ⟨h.subset hp, hne⟩
    simp only [keepsRetained, hc, Bool.false_or, all_eq_true] at hk
    have hn := hk pair hr
    rw [mem_retainedPairs, Option.isSome_iff_ne_none] at hp
    exact hp (Option.isNone_iff_eq_none.1 hn)
  · intro hc'
    rw [hcl, hc] at hc'
    cases hc'

theorem handleReconnected : Mirrors m.handleReconnected := by
  refine of_eq ?_
  have hc : m.handleReconnected.client =
      ({ m.client with connected := true } : ClientState).after (publications
        m.client.haDiscovery (m.softwareStates.getD []) (m.hostSummaryStates.getD [])
        (m.hostMetadata.getD [])).flatten :=
    publishEach_of_connected rfl _
  rw [hc, retainedPairs_publish _ (attributes_publications ..)]
  exact Set.union_eq_right.2 h.subset

theorem handleDisconnected : Mirrors m.handleDisconnected :=
  ⟨h.subset, fun hc => (Bool.false_ne_true hc).elim⟩

theorem handle {event} (hk : keepsRetained m event = true) : Mirrors (m.handle event) := by
  cases event with
  | fullState states =>
    cases hc : m.client.connected with
    | true => exact h.applyFullStates hc states
    | false => exact h.applyFullStates_of_disconnected hc hk
  | reconnected => exact h.handleReconnected
  | disconnected => exact h.handleDisconnected

end Mirrors

/-- In every run of full states, connects and disconnects in which no full state removes a
pair whose topic is retained while the client is disconnected: whenever the client is
connected, the attributes topics that are retained are those of the cached pairs. -/
theorem retained_eq_cached (haDiscovery : Bool) {events : List Event}
    (hme : Meets TenantManager.handle (fun m event => keepsRetained m event = true)
      (TenantManager.new haDiscovery) events) :
    let m := events.foldl TenantManager.handle (TenantManager.new haDiscovery)
    m.client.connected = true → m.client.retainedPairs = m.cachedPairs := by
  intro m hc
  have hm : Mirrors m :=
    foldl_invariant_of_meets (fun _ _ h hk => h.handle hk) (Mirrors.new haDiscovery) hme
  exact hm.eq_of_connected hc

/-! ## Removed while disconnected -/

def itemOn (hostIds : List Uuid) : PartialSoftwareStates where
  items := [⟨1, "app", none, hostIds.map fun hostId =>
    ⟨hostId, "host", "", some "1.0", some "1.1", true, false, none, none, none, none, none⟩⟩]
  hostSummaries := []
  hosts := []

/-- The item goes from a host while the client is disconnected. -/
def removedMeanwhile : List Event :=
  [.reconnected, .fullState (itemOn [10, 11]), .disconnected, .fullState (itemOn [10]),
    .reconnected]

/-- The attributes topic of the removed pair stays. -/
theorem removed_while_disconnected :
    let m := removedMeanwhile.foldl TenantManager.handle (TenantManager.new false)
    m.client.connected = true ∧ (1, 11) ∈ m.client.retainedPairs ∧ (1, 11) ∉ m.cachedPairs := by
  refine ⟨by decide, mem_retainedPairs.2 (by decide), ?_⟩
  show (1, 11) ∉ pairs (itemOn [10]).items
  decide

/-- The item goes from a host while the client is connected, and comes to another one while
it is not. -/
def movedInTurn : List Event :=
  [.reconnected, .fullState (itemOn [10, 11]), .fullState (itemOn [10]), .disconnected,
    .fullState (itemOn [10, 12]), .reconnected]

theorem retained_eq_cached_moved :
    let m := movedInTurn.foldl TenantManager.handle (TenantManager.new true)
    m.client.retainedPairs = m.cachedPairs ∧ (1, 12) ∈ m.cachedPairs := by
  have hm : Meets handle (fun m event => keepsRetained m event = true)
      (new true) movedInTurn := by
    decide
  refine ⟨retained_eq_cached true hm (by decide), ?_⟩
  show (1, 12) ∈ pairs (itemOn [10, 12]).items
  decide

end Uptrakit.Mqtt
