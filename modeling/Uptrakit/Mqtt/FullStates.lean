import Uptrakit.Data.Rank
import Uptrakit.Mqtt.Inventory

/-!
# Full states

A full state has every host that was active during the whole run, and every run whose
pages all arrive is applied, as long as the pages of two runs do not mix, no host is
deactivated while a run has pages to come, and none is activated between the count and
the read of a page (`full_states_complete`).  A host that is deactivated during a run
moves those behind it to an earlier page, which has been read already, and the pages of
two runs end in one buffer (`inventory_partial`).
-/

namespace Uptrakit.Mqtt

open Update (Uuid)
open Wire Concurrent Data List

/-! ## The condition -/

/-- The run has read some of its pages, and not all of them. -/
def PushRun.querying (run : PushRun) : Bool :=
  match run.point with
  | .count hostPage => hostPage != 0
  | .slice _ _ => true
  | .build hostPage totalPages _ => decide (hostPage + 1 < totalPages)
  | .finished | .failed => false

/-- The run has counted the hosts, and not read the page yet. -/
def PushRun.slicing (run : PushRun) : Bool :=
  match run.point with
  | .slice _ _ => true
  | _ => false

def Point.isFinished : Point → Bool
  | finished => true
  | _ => false

def PushRun.ended (run : PushRun) : Bool :=
  match run.point with
  | .finished | .failed => true
  | _ => false

theorem PushRun.go_of_ended (run : PushRun) (inventory : Inventory) (h : run.ended = true) :
    run.go inventory = run := by
  obtain ⟨point, _, _, _⟩ := run
  cases point with
  | count | slice | build => cases h
  | finished | failed => rfl

/-- Some pages of the run have arrived, and more may come. -/
def PushRun.partly (run : PushRun) : Bool :=
  decide (0 < run.received) && !(run.ended && run.sent.isEmpty)

theorem PushRun.partly_iff {run : PushRun} :
    run.partly = true ↔ 0 < run.received ∧ ¬ (run.ended = true ∧ run.sent = []) := by
  unfold partly
  cases run.ended <;> simp

def Frame.isPush (p : PushRun → Bool) : Frame → Bool
  | push run => p run
  | _ => false

/-- No host is deactivated while a run has read some of its pages, none is activated between
the count and the read of a page, and no page arrives while another run has arrived in
part. -/
def undisturbed (s : System Tenant Frame) : Move Operation Choice → Bool
  | .start _ => true
  | .run t choice =>
    match s.calls[t]?, choice with
    | some (.setActive _ false), .go => s.calls.all fun g => !g.isPush PushRun.querying
    | some (.setActive _ true), .go => s.calls.all fun g => !g.isPush PushRun.slicing
    | some (.push _), .receive => (s.calls.eraseIdx t).all fun g => !g.isPush PushRun.partly
    | _, _ => true

/-! ## Pages -/

theorem lt_totalPages {page hosts} : page < Inventory.totalPages statesHostPageSize hosts ↔
      page = 0 ∨ page * statesHostPageSize < hosts := by
  simp only [Inventory.totalPages, statesHostPageSize]
  split <;> omega

/-- The pages of a run are numbered, and exactly the last one of a finished run says so. -/
def Numbered (received : Nat) (closed : Bool) (sent : List SoftwareStatesPayload) : Prop :=
  ∀ i page, sent[i]? = some page →
    page.page.pageIndex = received + i ∧ page.page.isLast = (closed && i + 1 == sent.length)

/-- What a run has counted, at its point. -/
def PushRun.Counted (active : List HostRow) (run : PushRun) : Prop :=
  match run.point with
  | .count hostPage =>
    run.received + run.sent.length = hostPage ∧
      (hostPage ≠ 0 → hostPage * statesHostPageSize < active.length)
  | .slice hostPage totalPages =>
    run.received + run.sent.length = hostPage ∧ hostPage < totalPages ∧
      totalPages = Inventory.totalPages statesHostPageSize active.length
  | .build hostPage totalPages _ =>
    run.received + run.sent.length = hostPage ∧ hostPage < totalPages ∧
      (hostPage + 1 < totalPages → (hostPage + 1) * statesHostPageSize < active.length)
  | .finished => run.sent = [] → run.applied ≠ []
  | .failed => True

/-- The pages of a run, those that were sent and those in the buffer. -/
structure Paged (active : List HostRow) (buffer : Option PartialSoftwareStates)
    (run : PushRun) : Prop where
  numbered : Numbered run.received run.point.isFinished run.sent
  counted : run.Counted active
  buffered : run.partly = true → buffer.isSome

variable {received : Nat} {sent : List SoftwareStatesPayload} {page : SoftwareStatesPayload}
  {closed : Bool} {active : List HostRow} {manager : TenantManager} {s : System Tenant Frame}

theorem Numbered.concat (h : Numbered received false sent)
    (hi : page.page.pageIndex = received + sent.length) (hl : page.page.isLast = closed) :
    Numbered received closed (sent ++ [page]) := by
  intro i page' hp
  rcases getElem?_concat_eq_some_iff.1 hp with hs | ⟨rfl, rfl⟩
  · obtain ⟨hi', hl'⟩ := h i page' hs
    have hlt := (List.getElem?_eq_some_iff.1 hs).1
    have hne : (i + 1 == (sent ++ [page]).length) = false := by
      rw [length_append, length_singleton, beq_eq_false_iff_ne]
      omega
    refine ⟨hi', ?_⟩
    rw [hl', hne, Bool.false_and, Bool.and_false]
  · refine ⟨hi, ?_⟩
    rw [hl, length_append, length_singleton, beq_self_eq_true, Bool.and_true]

theorem Numbered.tail (h : Numbered received closed (page :: sent)) :
    Numbered (received + 1) closed sent := by
  intro i page' hp
  obtain ⟨_, hl⟩ := h (i + 1) page' hp
  refine ⟨by omega, ?_⟩
  rw [hl]
  simp

theorem accumulate_own {buffer : Option PartialSoftwareStates}
    (hb : page.page.pageIndex ≠ 0 → buffer.isSome) :
    ∃ merged : PartialSoftwareStates,
      page.hostIds ⊆ merged.hostIds ∧
      (page.page.pageIndex ≠ 0 → ∀ states, buffer = some states → states.hostIds ⊆ merged.hostIds) ∧
      (page.page.isLast = true → (accumulate buffer page).2 = some merged) ∧
      (page.page.isLast = false → accumulate buffer page = (some merged, none)) := by
  by_cases hi : page.page.pageIndex = 0
  · refine ⟨PartialSoftwareStates.new.extend page, ?_, fun h => absurd hi h, ?_, ?_⟩
    · rw [PartialSoftwareStates.hostIds_extend]
      exact subset_append_right _ _
    all_goals
      intro hl
      simp [accumulate, hi, hl]
  · obtain ⟨states, rfl⟩ := Option.isSome_iff_exists.1 (hb hi)
    refine ⟨states.extend page, ?_, ?_, ?_, ?_⟩
    · rw [PartialSoftwareStates.hostIds_extend]
      exact subset_append_right _ _
    · rintro _ _ ⟨⟩
      rw [PartialSoftwareStates.hostIds_extend]
      exact subset_append_left _ _
    all_goals
      intro hl
      simp [accumulate, hi, hl]

theorem page_pagePayload (inventory : Inventory) (hosts : List HostRow)
    (page : SoftwareStatesPage) : (inventory.pagePayload hosts page).page = page := by
  unfold Inventory.pagePayload
  split <;> rfl

section Build

variable (inventory : Inventory) {hostPage totalPages received : Nat} {hosts : List HostRow}
  {sent : List SoftwareStatesPayload} {applied : List PartialSoftwareStates}

theorem PushRun.go_build_last (hl : totalPages ≤ hostPage + 1) :
    (PushRun.mk (.build hostPage totalPages hosts) sent received applied).go inventory =
      ⟨.finished, sent ++ [inventory.pagePayload hosts ⟨hostPage, totalPages⟩], received,
        applied⟩ := by
  simp only [go, if_pos hl]

theorem PushRun.go_build_more (hm : hostPage + 1 < totalPages) :
    (PushRun.mk (.build hostPage totalPages hosts) sent received applied).go inventory =
      ⟨.count (hostPage + 1), sent ++ [inventory.pagePayload hosts ⟨hostPage, totalPages⟩],
        received, applied⟩ := by
  simp only [go, if_neg (not_le.2 hm)]

end Build

namespace Paged

variable {active active' : List HostRow} {buffer buffer' : Option PartialSoftwareStates}
  {run : PushRun}

theorem start (active buffer) : Paged active buffer ⟨.count 0, [], 0, []⟩ where
  numbered := fun i page hp => by cases hp
  counted := ⟨rfl, fun h => absurd rfl h⟩
  buffered := nofun

theorem go {inventory : Inventory} (h : Paged inventory.activeHosts buffer run) :
    Paged inventory.activeHosts buffer (run.go inventory) := by
  obtain ⟨hn, hc, hb⟩ := h
  obtain ⟨point, sent, received, _⟩ := run
  cases point with
  | count hostPage =>
    obtain ⟨hp, hm⟩ := hc
    refine ⟨hn, ⟨hp, ?_, rfl⟩, hb⟩
    refine lt_totalPages.2 ?_
    by_cases hz : hostPage = 0
    · exact .inl hz
    · exact .inr (hm hz)
  | slice hostPage =>
    obtain ⟨hp, hlt, rfl⟩ := hc
    refine ⟨hn, ⟨hp, hlt, ?_⟩, hb⟩
    intro hne
    exact (lt_totalPages.1 hne).resolve_left (Nat.succ_ne_zero hostPage)
  | build hostPage totalPages hosts =>
    obtain ⟨hp, hlt, hm⟩ : received + sent.length = hostPage ∧ _ := hc
    have hi : (inventory.pagePayload hosts ⟨hostPage, totalPages⟩).page.pageIndex =
        received + sent.length := (congrArg _ (page_pagePayload ..)).trans hp.symm
    have hl : (inventory.pagePayload hosts ⟨hostPage, totalPages⟩).page.isLast =
        (hostPage + 1 == totalPages) := congrArg SoftwareStatesPage.isLast (page_pagePayload ..)
    have hbu : 0 < received → buffer.isSome := by
      intro hpo
      refine hb (PushRun.partly_iff.2 ⟨hpo, ?_⟩)
      rintro ⟨⟨⟩, -⟩
    by_cases hf : totalPages ≤ hostPage + 1
    · have he : (hostPage + 1 == totalPages) = true := beq_iff_eq.2 (by omega)
      rw [PushRun.go_build_last inventory hf]
      refine ⟨hn.concat hi (hl.trans he), ?_, ?_⟩
      · intro hni
        exact absurd hni (concat_ne_nil _ _)
      · exact fun hpa => hbu (PushRun.partly_iff.1 hpa).1
    · have he : (hostPage + 1 == totalPages) = false := beq_eq_false_iff_ne.2 (by omega)
      rw [PushRun.go_build_more inventory (not_le.1 hf)]
      refine ⟨hn.concat hi (hl.trans he), ⟨?_, ?_⟩, ?_⟩
      · rw [length_append, length_singleton, ← Nat.add_assoc, hp]
      · exact fun _ => hm (not_le.1 hf)
      · exact fun hpa => hbu (PushRun.partly_iff.1 hpa).1
  | finished | failed => exact ⟨hn, hc, hb⟩

variable (h : Paged active buffer run)

include h

theorem fail : Paged active buffer run.fail := by
  obtain ⟨hn, hc, hb⟩ := h
  obtain ⟨point, _, _, _⟩ := run
  cases point with
  | finished => exact ⟨hn, hc, hb⟩
  | count | slice | build | failed =>
    refine ⟨hn, trivial, ?_⟩
    intro hp
    refine hb (PushRun.partly_iff.2 ⟨(PushRun.partly_iff.1 hp).1, ?_⟩)
    rintro ⟨-, hs⟩
    exact (PushRun.partly_iff.1 hp).2 ⟨rfl, hs⟩

/-- The run does not depend on the hosts any more, or not yet. -/
theorem of_not_querying (hr : run.querying = false) : Paged active' buffer run := by
  obtain ⟨hn, hc, hb⟩ := h
  refine ⟨hn, ?_, hb⟩
  obtain ⟨point, _, _, _⟩ := run
  cases point with
  | count =>
    refine ⟨hc.1, fun hne => absurd ?_ hne⟩
    simpa [PushRun.querying] using hr
  | slice => cases hr
  | build =>
    refine ⟨hc.1, hc.2.1, fun hm => absurd hm ?_⟩
    simpa [PushRun.querying] using hr
  | finished | failed => exact hc

/-- More hosts are active. -/
theorem mono (hr : run.slicing = false)
    (ha : active.length ≤ active'.length) : Paged active' buffer run := by
  obtain ⟨hn, hc, hb⟩ := h
  refine ⟨hn, ?_, hb⟩
  obtain ⟨point, _, _, _⟩ := run
  cases point with
  | count => exact ⟨hc.1, fun hne => (hc.2 hne).trans_le ha⟩
  | slice => cases hr
  | build =>
    exact ⟨hc.1, hc.2.1, fun hm => (hc.2.2 hm).trans_le ha⟩
  | finished | failed => exact hc

/-- A page of another run arrives. -/
theorem of_not_partly (hr : run.partly = false) : Paged active buffer' run := by
  refine ⟨h.numbered, h.counted, ?_⟩
  intro hp
  rw [hr] at hp
  cases hp

end Paged

/-- What the arrival of a page does: the last one completes a full state, the others are in
the buffer. -/
inductive Arrives (merged : PartialSoftwareStates) (run : PushRun)
    (sent : List SoftwareStatesPayload) (buffer : Option PartialSoftwareStates) : PushRun → Prop
  | last (hfinished : run.point = .finished) (hsent : sent = []) :
      Arrives merged run sent buffer ⟨.finished, [], run.received + 1, run.applied ++ [merged]⟩
  | more (hmore : run.point = .finished → sent ≠ []) (hbuffer : buffer = some merged) :
      Arrives merged run sent buffer ⟨run.point, sent, run.received + 1, run.applied⟩

theorem Paged.arrives {run} (h : Paged active manager.partialStates run)
    (hse : run.sent = page :: sent) : ∃ merged : PartialSoftwareStates,
      page.hostIds ⊆ merged.hostIds ∧
      (run.partly = true → ∀ states, manager.partialStates = some states →
        states.hostIds ⊆ merged.hostIds) ∧
      Arrives merged run sent (run.receive manager).1.partialStates (run.receive manager).2 := by
  obtain ⟨point, _, received, applied⟩ := run
  obtain rfl : _ = page :: sent := hse
  obtain ⟨hin, hl⟩ : page.page.pageIndex = received ∧ _ := h.numbered 0 page rfl
  have hb : page.page.pageIndex ≠ 0 → manager.partialStates.isSome := by
    intro hne
    refine h.buffered (PushRun.partly_iff.2 ⟨?_, ?_⟩)
    · show 0 < received
      omega
    · rintro ⟨-, ⟨⟩⟩
  obtain ⟨merged, hpa, hst, ha, hs⟩ := accumulate_own hb
  refine ⟨merged, hpa, ?_, ?_⟩
  · intro hp
    have hpo : 0 < received := (PushRun.partly_iff.1 hp).1
    exact hst (by omega)
  · cases hi : page.page.isLast with
    | true =>
      rw [hi, eq_comm, Bool.and_eq_true, beq_iff_eq] at hl
      have hf : point = .finished := by
        cases point with
        | finished => rfl
        | _ => cases hl.1
      have hn : sent = [] := eq_nil_of_length_eq_zero (Nat.succ_inj.1 hl.2).symm
      subst hf hn
      simp only [PushRun.receive, ha hi]
      exact .last rfl rfl
    | false =>
      have hm : point = .finished → sent ≠ [] := by
        rintro rfl rfl
        rw [hi] at hl
        cases hl
      have hr : (PushRun.mk point (page :: sent) received applied).receive manager =
          (manager.updateSoftwareStates page, ⟨point, sent, received + 1, applied⟩) := by
        simp only [PushRun.receive, hs hi, Option.toList_none, append_nil]
      rw [hr, TenantManager.updateSoftwareStates, hs hi]
      exact .more hm rfl

theorem Paged.receive {run} (h : Paged active manager.partialStates run) :
    Paged active (run.receive manager).1.partialStates (run.receive manager).2 := by
  cases hs : run.sent with
  | nil =>
    rw [PushRun.receive, hs]
    exact h
  | cons page sent =>
    obtain ⟨_, -, -, ha⟩ := h.arrives hs
    have hn := (hs ▸ h.numbered).tail
    generalize run.receive manager = arrival at ha ⊢
    obtain ⟨_, _⟩ := arrival
    cases ha with
    | last =>
      refine ⟨?_, ?_, ?_⟩
      · intro i page' hpa
        cases hpa
      · intro _
        exact concat_ne_nil _ _
      · intro hp
        exact absurd ⟨rfl, rfl⟩ (PushRun.partly_iff.1 hp).2
    | more hm hb =>
      refine ⟨hn, ?_, fun _ => ?_⟩
      · obtain ⟨point, _, received, _⟩ := run
        obtain rfl : _ = page :: sent := hs
        have hl : received + 1 + sent.length = received + (page :: sent).length := by
          rw [length_cons]
          omega
        have hc := h.counted
        cases point with
        | count | slice | build => exact ⟨hl.trans hc.1, hc.2⟩
        | finished => exact fun hni => absurd hni (hm rfl)
        | failed => trivial
      · rw [hb]
        rfl

/-! ## Hosts -/

section Covers

variable {hostId : Uuid} {active active' : List HostRow}
  {buffer buffer' : Option PartialSoftwareStates} {run : PushRun}

/-- The host is on a page that was sent or in the buffer of the run. -/
def Seen (hostId : Uuid) (buffer : Option PartialSoftwareStates) (run : PushRun) : Prop :=
  (∃ page ∈ run.sent, hostId ∈ page.hostIds) ∨
    run.partly = true ∧ ∃ states, buffer = some states ∧ hostId ∈ states.hostIds

/-- The host was seen, or its rank is on a page that is still to come. -/
def PushRun.Covered (hostId : Uuid) (active : List HostRow)
    (buffer : Option PartialSoftwareStates) (run : PushRun) : Prop :=
  match run.point with
  | .count hostPage | .slice hostPage _ =>
    Seen hostId buffer run ∨ hostPage * statesHostPageSize ≤ rank HostRow.id hostId active
  | .build hostPage totalPages hosts =>
    Seen hostId buffer run ∨ hostId ∈ hosts.map (·.id) ∨
      hostPage + 1 < totalPages ∧
        (hostPage + 1) * statesHostPageSize ≤ rank HostRow.id hostId active
  | .finished => run.sent ≠ [] → Seen hostId buffer run
  | .failed => True

/-- The run misses no page of the host, and what was applied has it. -/
structure Covers (hostId : Uuid) (active : List HostRow)
    (buffer : Option PartialSoftwareStates) (run : PushRun) : Prop where
  covered : run.Covered hostId active buffer
  applied : ∀ states ∈ run.applied, hostId ∈ states.hostIds

variable {point point' : Point} {applied : List PartialSoftwareStates}

theorem Seen.of_point (h : Seen hostId buffer ⟨point, sent, received, applied⟩)
    (hpo : (PushRun.mk point' sent received applied).ended = false) :
    Seen hostId buffer ⟨point', sent, received, applied⟩ := by
  rcases h with hs | ⟨hp, hb⟩
  · exact .inl hs
  · refine .inr ⟨PushRun.partly_iff.2 ⟨(PushRun.partly_iff.1 hp).1, ?_⟩, hb⟩
    rintro ⟨he, -⟩
    rw [hpo] at he
    cases he

theorem Seen.send (h : Seen hostId buffer ⟨point, sent, received, applied⟩) (page) :
    Seen hostId buffer ⟨point', sent ++ [page], received, applied⟩ := by
  rcases h with ⟨page', hpa', hh⟩ | ⟨hp, hb⟩
  · exact .inl ⟨page', mem_append_left _ hpa', hh⟩
  · refine .inr ⟨PushRun.partly_iff.2 ⟨(PushRun.partly_iff.1 hp).1, ?_⟩, hb⟩
    rintro ⟨-, hn⟩
    exact concat_ne_nil _ _ hn

theorem hostIds_pagePayload (inventory : Inventory) (hosts : List HostRow)
    (page : SoftwareStatesPage) :
    (inventory.pagePayload hosts page).hostIds = hosts.map (·.id) := by
  unfold Inventory.pagePayload
  split
  · rename_i he
    rw [isEmpty_iff.1 he]
    rfl
  · show (hosts.map inventory.hostMetadata).map (·.hostId) = _
    rw [map_map]
    rfl

namespace Covers

theorem start (hostId active buffer) : Covers hostId active buffer ⟨.count 0, [], 0, []⟩ where
  covered := .inr (by omega)
  applied := nofun

variable (h : Covers hostId active buffer run)

include h

theorem fail : Covers hostId active buffer run.fail := by
  obtain ⟨hc, ha⟩ := h
  obtain ⟨point, _, _, _⟩ := run
  cases point with
  | finished => exact ⟨hc, ha⟩
  | count | slice | build | failed => exact ⟨trivial, ha⟩

variable {inventory : Inventory}

omit h in
theorem slice {hostPage totalPages} (ha : hostId ∈ inventory.activeHosts.map (·.id))
    (ht : totalPages = Inventory.totalPages statesHostPageSize inventory.activeHosts.length)
    (hr : hostPage * statesHostPageSize ≤ rank HostRow.id hostId inventory.activeHosts) :
    hostId ∈ (inventory.pageHosts statesHostPageSize hostPage).map (·.id) ∨
      hostPage + 1 < totalPages ∧
        (hostPage + 1) * statesHostPageSize ≤ rank HostRow.id hostId inventory.activeHosts := by
  obtain ⟨host, hh, rfl⟩ := mem_map.1 ha
  have ho : inventory.activeHosts.Pairwise fun a b => a.id < b.id :=
    inventory.ordered.filter _
  by_cases hp : rank HostRow.id host.id inventory.activeHosts <
      hostPage * statesHostPageSize + statesHostPageSize
  · exact .inl (mem_map_of_mem (mem_window_of_rank ho hh hr hp))
  · have hn : (hostPage + 1) * statesHostPageSize ≤
        rank HostRow.id host.id inventory.activeHosts := by
      rw [Nat.succ_mul]
      exact not_lt.1 hp
    refine .inr ⟨?_, hn⟩
    rw [ht]
    exact lt_totalPages.2 (.inr (hn.trans_lt (rank_lt_length ho hh)))

omit h in
theorem go (h : Covers hostId inventory.activeHosts buffer run)
    (hp : Paged inventory.activeHosts buffer run)
    (hac : hostId ∈ inventory.activeHosts.map (·.id)) :
    Covers hostId inventory.activeHosts buffer (run.go inventory) := by
  obtain ⟨hc, ha⟩ := h
  obtain ⟨point, sent, received, applied⟩ := run
  cases point with
  | count => exact ⟨hc.imp_left (·.of_point rfl), ha⟩
  | slice =>
    refine ⟨?_, ha⟩
    rcases hc with hs | hr
    · exact .inl (hs.of_point rfl)
    · exact .inr (slice hac hp.counted.2.2 hr)
  | build hostPage totalPages hosts =>
    have hse : Seen hostId buffer ⟨.build hostPage totalPages hosts, sent, received, applied⟩ ∨
        hostId ∈ hosts.map (·.id) →
        ∀ point, Seen hostId buffer
          ⟨point, sent ++ [inventory.pagePayload hosts ⟨hostPage, totalPages⟩], received,
            applied⟩ := by
      rintro (hs | hh) point
      · exact hs.send _
      · refine .inl ⟨_, mem_append_right _ mem_cons_self, ?_⟩
        rw [hostIds_pagePayload]
        exact hh
    by_cases hl : totalPages ≤ hostPage + 1
    · rw [PushRun.go_build_last inventory hl]
      refine ⟨fun _ => ?_, ha⟩
      rcases hc with hs | hh | ⟨_, -⟩
      · exact hse (.inl hs) _
      · exact hse (.inr hh) _
      · omega
    · rw [PushRun.go_build_more inventory (not_le.1 hl)]
      refine ⟨?_, ha⟩
      rcases hc with hs | hh | ⟨-, hr⟩
      · exact .inl (hse (.inl hs) _)
      · exact .inl (hse (.inr hh) _)
      · exact .inr hr
  | finished | failed => exact ⟨hc, ha⟩

/-- The run does not depend on the hosts any more, or not yet. -/
theorem of_not_querying (hr : run.querying = false) : Covers hostId active' buffer run := by
  refine ⟨?_, h.applied⟩
  have hc := h.covered
  obtain ⟨point, _, _, _⟩ := run
  cases point with
  | count hostPage =>
    have hz : hostPage = 0 := by simpa [PushRun.querying] using hr
    exact .inr (by simp [hz])
  | slice => cases hr
  | build hostPage totalPages =>
    have hl : ¬ hostPage + 1 < totalPages := by simpa [PushRun.querying] using hr
    exact hc.imp_right (Or.imp_right fun hm => absurd hm.1 hl)
  | finished | failed => exact hc

/-- More hosts are active. -/
theorem mono (ha : active.Sublist active') : Covers hostId active' buffer run := by
  refine ⟨?_, h.applied⟩
  have hr : rank HostRow.id hostId active ≤ rank HostRow.id hostId active' :=
    ha.countP_le
  have hc := h.covered
  obtain ⟨point, _, _, _⟩ := run
  cases point with
  | count | slice => exact hc.imp_right (·.trans hr)
  | build => exact hc.imp_right (Or.imp_right (And.imp_right (·.trans hr)))
  | finished | failed => exact hc

/-- A page of another run arrives. -/
theorem of_not_partly (hr : run.partly = false) : Covers hostId active buffer' run := by
  have hs : Seen hostId buffer run → Seen hostId buffer' run := by
    rintro (hse | ⟨hp, -⟩)
    · exact .inl hse
    · rw [hr] at hp
      cases hp
  refine ⟨?_, h.applied⟩
  have hc := h.covered
  obtain ⟨point, _, _, _⟩ := run
  cases point with
  | count | slice | build => exact hc.imp_left hs
  | finished => exact hs ∘ hc
  | failed => trivial

omit h

theorem receive (h : Covers hostId active manager.partialStates run)
    (hpag : Paged active manager.partialStates run) :
    Covers hostId active (run.receive manager).1.partialStates (run.receive manager).2 := by
  cases hs : run.sent with
  | nil =>
    rw [PushRun.receive, hs]
    exact h
  | cons page sent =>
    obtain ⟨merged, hp, hst, har⟩ := hpag.arrives hs
    have hse : Seen hostId manager.partialStates run →
        hostId ∈ merged.hostIds ∨ ∃ page ∈ sent, hostId ∈ page.hostIds := by
      rintro (⟨page', hp', hh⟩ | ⟨hpa, states, hb, hh⟩)
      · rw [hs] at hp'
        rcases mem_cons.1 hp' with rfl | hp'
        · exact .inl (hp hh)
        · exact .inr ⟨page', hp', hh⟩
      · exact .inl (hst hpa states hb hh)
    generalize run.receive manager = arrival at har ⊢
    obtain ⟨manager', _⟩ := arrival
    obtain ⟨hc, ha⟩ := h
    cases har with
    | last hf hn =>
      subst hn
      refine ⟨fun hne => absurd rfl hne, ?_⟩
      rw [PushRun.Covered, hf] at hc
      have hm : hostId ∈ merged.hostIds := by
        have hne : run.sent ≠ [] := by
          rw [hs]
          exact cons_ne_nil _ _
        rcases hse (hc hne) with hm | ⟨_, hme, -⟩
        · exact hm
        · cases hme
      intro states hme
      rcases mem_append.1 hme with hme | hme
      · exact ha states hme
      · obtain rfl := mem_singleton.1 hme
        exact hm
    | more _ hb =>
      have hse' : Seen hostId manager.partialStates run →
          ¬ (run.ended = true ∧ sent = []) →
          Seen hostId manager'.partialStates ⟨run.point, sent, run.received + 1, run.applied⟩ := by
        intro hr ho
        rcases hse hr with hm | hs'
        · exact .inr ⟨PushRun.partly_iff.2 ⟨Nat.succ_pos _, ho⟩, merged, hb, hm⟩
        · exact .inl hs'
      refine ⟨?_, ha⟩
      obtain ⟨point, _, _, _⟩ := run
      obtain rfl : _ = page :: sent := hs
      cases point with
      | count | slice | build =>
        refine hc.imp_left fun hr => hse' hr ?_
        rintro ⟨⟨⟩, -⟩
      | finished =>
        intro hne
        exact hse' (hc (cons_ne_nil _ _)) fun ho => hne ho.2
      | failed => trivial

end Covers

end Covers

/-! ## Runs -/

/-- A property of a run, the active hosts and the buffer that is kept by whatever may happen
under the condition, in the inventories that are `ok`. -/
structure Stable (ok : Inventory → Prop)
    (P : List HostRow → Option PartialSoftwareStates → PushRun → Prop) : Prop where
  start : ∀ active buffer, P active buffer ⟨.count 0, [], 0, []⟩
  go : ∀ {inventory : Inventory} {buffer run}, ok inventory →
    P inventory.activeHosts buffer run → P inventory.activeHosts buffer (run.go inventory)
  fail : ∀ {active buffer run}, P active buffer run → P active buffer run.fail
  receive : ∀ {active run} {manager : TenantManager}, P active manager.partialStates run →
    P active (run.receive manager).1.partialStates (run.receive manager).2
  deactivate : ∀ {active active' buffer} {run : PushRun}, P active buffer run →
    run.querying = false → P active' buffer run
  activate : ∀ {active active' buffer} {run : PushRun}, P active buffer run →
    run.slicing = false → active.Sublist active' → P active' buffer run
  mix : ∀ {active buffer buffer'} {run : PushRun}, P active buffer run →
    run.partly = false → P active buffer' run

theorem stable_paged : Stable (fun _ => True) Paged where
  start := Paged.start
  go _ h := h.go
  fail h := h.fail
  receive h := h.receive
  deactivate h hr := h.of_not_querying hr
  activate h hr ha := h.mono hr ha.length_le
  mix h hr := h.of_not_partly hr

theorem stable_covers (hostId) : Stable (fun inventory => hostId ∈ inventory.activeHosts.map (·.id))
      fun active buffer run => Paged active buffer run ∧ Covers hostId active buffer run where
  start active buffer := ⟨Paged.start active buffer, Covers.start hostId active buffer⟩
  go ha h := ⟨h.1.go, h.2.go h.1 ha⟩
  fail h := ⟨h.1.fail, h.2.fail⟩
  receive h := ⟨h.1.receive, h.2.receive h.1⟩
  deactivate h hr := ⟨h.1.of_not_querying hr, h.2.of_not_querying hr⟩
  activate h hr ha := ⟨h.1.mono hr ha.length_le, h.2.mono ha⟩
  mix h hr := ⟨h.1.of_not_partly hr, h.2.of_not_partly hr⟩

theorem activeHosts_sublist (inventory : Inventory) (hostId : Uuid) :
    inventory.activeHosts.Sublist (inventory.setActive hostId true).activeHosts := by
  show (inventory.hosts.filter (·.active)).Sublist
    ((inventory.hosts.map fun host =>
      if host.id = hostId then { host with active := true } else host).filter (·.active))
  induction inventory.hosts with
  | nil => exact .slnil
  | cons host _ ih =>
    rw [map_cons]
    by_cases ha : host.active = true
    · have hk : (if host.id = hostId then { host with active := true } else host) = host := by
        split
        · rw [← ha]
        · rfl
      rw [hk, filter_cons_of_pos ha, filter_cons_of_pos ha]
      exact ih.cons_cons host
    · rw [filter_cons_of_neg ha, filter_cons]
      split
      · exact ih.cons _
      · exact ih

/-- The run that is call number `d`. -/
def Holds (P : List HostRow → Option PartialSoftwareStates → PushRun → Prop) (d : Nat)
    (s : System Tenant Frame) : Prop :=
  ∃ run, s.calls[d]? = some (.push run) ∧
    P s.shared.inventory.activeHosts s.shared.manager.partialStates run

/-- While call number `d` is a run that has not ended its queries, the inventory is `ok`. -/
def WhileReading (ok : Inventory → Prop) (d : Nat) (s : System Tenant Frame) : Prop :=
  ∀ run, s.calls[d]? = some (.push run) → run.ended = false → ok s.shared.inventory

namespace Stable

variable {ok : Inventory → Prop}
  {P : List HostRow → Option PartialSoftwareStates → PushRun → Prop} {d t : Nat}
  {s : System Tenant Frame}

theorem begin (hP : Stable ok P) (s : System Tenant Frame) :
    Holds P s.calls.length (pushes.move s (.start .push)) :=
  ⟨_, Calls.getElem?_calls_start s _, hP.start _ _⟩

theorem started (h : Holds P d s) (operation) : Holds P d (pushes.move s (.start operation)) := by
  obtain ⟨run, hc, hr⟩ := h
  exact ⟨run, getElem?_append_of_eq_some hc _, hr⟩

variable {choice : Choice}

theorem step_other (hP : Stable ok P) {f run} (hc : s.calls[t]? = some f)
    (hd : s.calls[d]? = some (.push run)) (htd : t ≠ d)
    (hu : undisturbed s (.run t choice) = true)
    (hr : P s.shared.inventory.activeHosts s.shared.manager.partialStates run) :
    Holds P d ⟨(step choice s.shared f).1, s.calls.set t (step choice s.shared f).2⟩ := by
  refine ⟨run, (getElem?_set_ne htd).trans hd, ?_⟩
  have hm : Frame.push run ∈ s.calls := mem_of_getElem? hd
  cases f with
  | done => exact hr
  | push =>
    cases choice with
    | go | fail => exact hr
    | receive =>
      have he : Frame.push run ∈ s.calls.eraseIdx t :=
        mem_eraseIdx_iff_getElem?.2 ⟨d, Ne.symm htd, hd⟩
      simp only [undisturbed, hc, all_eq_true] at hu
      exact hP.mix hr (by simpa [Frame.isPush] using hu _ he)
  | setActive hostId active =>
    cases choice with
    | fail | receive => exact hr
    | go =>
      cases active with
      | false =>
        simp only [undisturbed, hc, all_eq_true] at hu
        exact hP.deactivate hr (by simpa [Frame.isPush] using hu _ hm)
      | true =>
        simp only [undisturbed, hc, all_eq_true] at hu
        exact hP.activate hr (by simpa [Frame.isPush] using hu _ hm)
          (activeHosts_sublist s.shared.inventory hostId)

/-- What is stable holds of a run in every state that is reached after it was started. -/
theorem run (hP : Stable ok P) {began : System Tenant Frame} {after} (hm : Meets pushes.move
      (fun s m => undisturbed s m = true ∧ WhileReading ok began.calls.length s)
      (pushes.move began (.start .push)) after) :
    Holds P began.calls.length (pushes.run began (.start .push :: after)) := by
  refine Calls.run_invariant_of_meets ?_ ?_ (hP.begin began) hm
  · intro s operation h _
    exact started h operation
  · intro s t choice f h hok hc
    obtain ⟨run, hd, hr⟩ := h
    by_cases htd : t = began.calls.length
    · subst htd
      obtain rfl := Option.some.inj (hc.symm.trans hd)
      cases choice with
      | go =>
        refine ⟨_, getElem?_set_self_of_eq_some hc _, ?_⟩
        cases he : run.ended with
        | false => exact hP.go (hok.2 run hd he) hr
        | true => rwa [run.go_of_ended _ he]
      | fail => exact ⟨_, getElem?_set_self_of_eq_some hc _, hP.fail hr⟩
      | receive => exact ⟨_, getElem?_set_self_of_eq_some hc _, hP.receive hr⟩
    · exact hP.step_other hc hd htd hok.1 hr

end Stable

theorem Holds.of_call {P : List HostRow → Option PartialSoftwareStates → PushRun → Prop} {d}
    (h : Holds P d s) {run} (hc : s.calls[d]? = some (.push run)) :
    P s.shared.inventory.activeHosts s.shared.manager.partialStates run := by
  obtain ⟨run', hc', hr⟩ := h
  obtain rfl : run' = run := Frame.push.inj (Option.some.inj (hc'.symm.trans hc))
  exact hr

/-- The host is active. -/
def Lists (hostId : Uuid) (inventory : Inventory) : Prop :=
  hostId ∈ inventory.activeHosts.map (·.id)

instance (hostId : Uuid) (inventory : Inventory) : Decidable (Lists hostId inventory) :=
  inferInstanceAs (Decidable (_ ∈ _))

/-- A full state that is applied on a page of a run has every host that was active while the
run read its pages, and a run whose pages have all arrived was applied. -/
theorem full_states_complete {began : System Tenant Frame} {after : List (Move Operation Choice)}
    (hm : Meets pushes.move (fun s m => undisturbed s m = true) began (.start .push :: after))
    {run : PushRun}
    (hr : (pushes.run began (.start .push :: after)).calls[began.calls.length]? =
      some (.push run)) :
    (∀ hostId,
      (∀ n, WhileReading (Lists hostId) began.calls.length
        (pushes.run began (.start .push :: after.take n))) →
      ∀ states ∈ run.applied, hostId ∈ states.hostIds) ∧
    (run.point = .finished → run.sent = [] → run.applied ≠ []) := by
  constructor
  · intro hostId ha states hs
    have hh := (stable_covers hostId).run (hm.2.and_of_forall ha)
    exact (hh.of_call hr).2.applied states hs
  · intro hf hse
    have hm' := hm.2.and_of_forall (p := WhileReading (fun _ => True) began.calls.length)
      fun _ _ _ _ => trivial
    have hc := ((stable_paged.run hm').of_call hr).counted
    unfold PushRun.Counted at hc
    rw [hf] at hc
    exact hc hse

/-! ## Partial states -/

def fleet (hosts : Nat) : System Tenant Frame where
  shared :=
    { inventory :=
        { hosts := (List.range hosts).map fun id => ⟨id, "host", "", none, none, none, true⟩
          ordered := List.pairwise_map.2 List.pairwise_lt_range
          hostSoftwareItems := []
          softwareItems := []
          activeUpdates := []
          hostTags := []
          agents := [] }
      manager := TenantManager.new false }

def onePage (t : Nat) : List (Move Operation Choice) := [.run t .go, .run t .go, .run t .go]

/-- Host 0 is deactivated after the first of two pages was read. -/
def deactivatedBetween : List (Move Operation Choice) :=
  onePage 0 ++ [.start (.setActive 0 false), .run 1 .go] ++ onePage 0 ++
    [.run 0 .receive, .run 0 .receive]

/-- The first page of another run arrives before the last of three pages. -/
def mixed : List (Move Operation Choice) :=
  onePage 0 ++ onePage 0 ++ onePage 0 ++ [.start .push] ++ onePage 1 ++
    [.run 0 .receive, .run 0 .receive, .run 1 .receive, .run 0 .receive]

def appliedFirst (s : System Tenant Frame) : List PartialSoftwareStates :=
  match s.calls.head? with
  | some (.push run) => run.applied
  | _ => []

def deliveredFirst (s : System Tenant Frame) : Bool :=
  match s.calls.head? with
  | some (.push run) => run.point.isFinished && run.sent.isEmpty
  | _ => false

theorem exists_of_deliveredFirst (h : deliveredFirst s = true) :
    ∃ run, s.calls[0]? = some (.push run) ∧ run.point = .finished ∧ run.sent = [] := by
  unfold deliveredFirst at h
  split at h
  · next run hr =>
      rw [Bool.and_eq_true, List.isEmpty_iff] at h
      refine ⟨run, head?_eq_getElem?.symm.trans hr, ?_, h.2⟩
      revert h
      cases run.point <;> simp [Point.isFinished]
  · cases h

set_option maxRecDepth 20000 in
/-- Of 102 hosts the one that moves to the first page is missing; of 101 hosts the second page
is not the last one of one, and the run is never applied; the pages of two runs lack the
second one. -/
theorem inventory_partial :
    (∀ n, Lists 100 (pushes.run (fleet 102)
        (.start .push :: deactivatedBetween.take n)).shared.inventory) ∧
    (∃ states ∈ appliedFirst (pushes.run (fleet 102) (.start .push :: deactivatedBetween)),
      100 ∉ states.hostIds) ∧
    (deliveredFirst (pushes.run (fleet 101) (.start .push :: deactivatedBetween)) = true ∧
      appliedFirst (pushes.run (fleet 101) (.start .push :: deactivatedBetween)) = []) ∧
    (∀ n, Lists 150 (pushes.run (fleet 201) (.start .push :: mixed.take n)).shared.inventory) ∧
    (∃ states ∈ appliedFirst (pushes.run (fleet 201) (.start .push :: mixed)),
      150 ∉ states.hostIds) := by
  refine ⟨?_, by decide +kernel, by decide +kernel, ?_, by decide +kernel⟩
  · exact forall_foldl_take (p := fun s : System Tenant Frame => Lists 100 s.shared.inventory)
      (by decide +kernel) (by decide +kernel)
  · exact forall_foldl_take (p := fun s : System Tenant Frame => Lists 150 s.shared.inventory)
      (by decide +kernel) (by decide +kernel)

/-- A host is activated before the second page is counted, and the pages arrive as they are
sent. -/
def activatedBetween : List (Move Operation Choice) :=
  [.start (.setActive 0 false), .run 1 .go] ++ onePage 0 ++
    [.start (.setActive 0 true), .run 0 .receive, .run 2 .go] ++ onePage 0 ++ [.run 0 .receive]

set_option maxRecDepth 20000 in
theorem full_states_complete_activated :
    ∃ run, (pushes.run (fleet 102) (.start .push :: activatedBetween)).calls[0]? =
        some (.push run) ∧
      run.applied ≠ [] ∧ ∀ states ∈ run.applied, 101 ∈ states.hostIds := by
  have hm : Meets pushes.move (fun s m => undisturbed s m = true) (fleet 102)
      (.start .push :: activatedBetween) := by
    decide +kernel
  have hd :
      deliveredFirst (pushes.run (fleet 102) (.start .push :: activatedBetween)) = true := by
    decide +kernel
  have hac : ∀ n, Lists 101 (pushes.run (fleet 102)
      (.start .push :: activatedBetween.take n)).shared.inventory :=
    forall_foldl_take (p := fun s : System Tenant Frame => Lists 101 s.shared.inventory)
      (by decide +kernel) (by decide +kernel)
  obtain ⟨run, hr, hf, hs⟩ := exists_of_deliveredFirst hd
  obtain ⟨hc, ha⟩ := full_states_complete hm hr
  exact ⟨run, hr, ha hf hs, hc 101 fun n _ _ _ => hac n⟩

end Uptrakit.Mqtt
