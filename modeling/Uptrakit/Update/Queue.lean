import Uptrakit.Update.Finality
import Uptrakit.Update.Protection

/-!
# The queue of a host

A queued row waits for an event that ends the row blocking its host: whoever ends
it promotes the next queued row.  The paths that end a row and promote nobody are
the failures of an orchestrator, the batch results, the orchestrator rows failed on
reconnect, a promotion of the service handler whose target cannot be loaded, and
the reaped rows outside a batch.  A row may also be queued behind a row that has
ended since the host was looked at.

When these leave no queued row behind, the queue of no host stalls: as long as a
host has queued rows and no row blocks it, some task in flight is on its way to
promote one.
-/

namespace Uptrakit.Update

open Concurrent List Write Config ProtectionAnswer Bool
open Update.Frame hiding next

/-! ## Rows that frames know -/

def Row.key (r : Row) : Uuid × Uuid := (r.id, r.hostId)

/-- The table has a row with this id on this host. -/
def Located (db : Db) (key : Uuid × Uuid) : Prop := ∃ r ∈ db.history.rows, r.key = key

def BatchRun.keys (run : BatchRun) : List (Uuid × Uuid) :=
  run.items.map fun item => (item.updateHistoryId, item.hostId)

/-- The rows of the batch that a promotion loop returns to. -/
def Promotion.keys : Promotion → List (Uuid × Uuid)
  | forHost l => (l.resume.map BatchRun.keys).getD []
  | handler _ _ | forReplay _ => []

/-- The row that a caller protects, and those of the batch that it returns to. -/
def Caller.keys : Caller → List (Uuid × Uuid)
  | promotion l next => (next.id, l.hostId) :: (Promotion.forHost l).keys
  | orchestrator _ => []
  | batch item rest => (item.updateHistoryId, item.hostId) :: rest.keys

namespace Frame

def keys : Frame → List (Uuid × Uuid)
  | dispatchItems run => run.keys
  | findQueued p => p.keys
  | promote p next | loadTarget p next | failDispatch p next _ => (next.id, p.hostId) :: p.keys
  | prepareProtection caller | recordProtection caller _ | dispatchUpdateToAgent caller =>
    caller.keys
  | transitionToAwaitingRestart record _ _ | finalizeUpdateResult record _ _
  | failPendingUnowned record _ _ => [record.key]
  | markOwnedInterrupted _ _ _ records | preparePendingRecords _ records | reapOverdue _ records
  | reapStalledPending _ _ records | markRollout records => records.map Row.key
  | failUnreplayable _ record rest => (record :: rest).map Row.key
  | _ => []

/-- The update that the frame protects, dispatches or fails. -/
def working : Frame → List Uuid
  | loadTarget _ next | failDispatch _ next _ => [next.id]
  | prepareProtection caller | recordProtection caller _ | dispatchUpdateToAgent caller =>
    [caller.updateHistoryId]
  | failBeforeAgentDispatch id => [id]
  | _ => []

end Frame

variable {db db' : Db} {n : Nat} {key : Uuid × Uuid} {id hostId : Uuid} {r : Row} {ω : Choice}
  {f g : Frame} {world : World} {rows : List Row} {w : Write} {log : List Event} {v : Violation}

theorem Located.execute {s} (h : Located db key) (hexec : db.execute s = .ok (db', n)) :
    Located db' key :=
  Db.exists_of_execute hexec
    (fun w _ r hk => by rw [← hk, Row.key, Row.key, w.row_id, w.row_hostId]) h

theorem Db.mem_of_nextQueued (h : db.nextQueued hostId = some r) :
    r ∈ db.history.rows ∧ r.hostId = hostId ∧ r.status = .queued := by
  have hm := mem_filter.mp (argmin_mem h)
  simpa using hm

/-- What a frame knows of a row it was told, or it has just read or inserted the
row. -/
theorem keys_of_leads (hexec : db.execute (f.statement ω) = .ok (db', n)) (h : f.Leads ω db n g)
    (hk : key ∈ g.keys) : key ∈ f.keys ∨ Located db' key := by
  have hrea : ∀ r ∈ db.history.rows, Located db' r.key := fun r hr =>
    Located.execute ⟨r, hr, rfl⟩ hexec
  cases h
  case batchInserted tenantId validated busy =>
    right
    simp only [Frame.keys, BatchRun.keys, batchRun, map_map, mem_map] at hk
    obtain ⟨r, hr, rfl⟩ := hk
    rw [Located, Db.rows_of_execute hexec]
    exact ⟨r, mem_append_right _ hr, rfl⟩
  case found p next hq =>
    obtain rfl | hk := mem_cons.mp hk
    · obtain ⟨hm, hh, -⟩ := Db.mem_of_nextQueued hq
      exact .inr (hh ▸ hrea next hm)
    · exact .inl hk
  case protectItem run item rest hi hd =>
    left
    simpa [Frame.keys, Caller.keys, BatchRun.keys, hi] using hk
  case skipItem run item rest hi =>
    left
    simp only [Frame.keys, BatchRun.keys, hi] at hk ⊢
    exact mem_cons_of_mem _ hk
  case queueEmptyResume l run hre =>
    left
    simpa [Frame.keys, Promotion.keys, hre] using hk
  case dispatchedResume l next run hre =>
    refine .inl (mem_cons_of_mem _ ?_)
    simpa [Frame.keys, Promotion.keys, hre] using hk
  case missed | failedRetry | unprotectedRetry | dispatchedItem | replayNext | replayRest =>
    exact .inl (mem_cons_of_mem _ hk)
  case unprotectedItem item rest answer =>
    exact .inl (mem_cons_of_mem _ (by simpa [Frame.keys, Promotion.keys] using hk))
  case resumableResult record hf | result record hf =>
    obtain rfl := mem_singleton.mp hk
    exact .inr (hrea record (mem_of_find?_eq_some hf))
  case candidates | overdue | stillPending | rollout =>
    obtain ⟨r, hr, rfl⟩ := mem_map.mp hk
    exact .inr (hrea r (mem_filter.mp hr).1)
  case pendingLoaded serviceId =>
    obtain ⟨r, hr, rfl⟩ := mem_map.mp hk
    exact .inr (hrea r (mem_pendingUpdates hr).1)
  all_goals first
    | exact .inl hk
    | cases hk

theorem working_of_leads (h : f.Leads ω db n g) (hid : id ∈ g.working) :
    id ∈ f.working ∨ id ∈ g.toProtect ∨ id ∈ g.contends := by
  cases h
  case promoted p next hn =>
    obtain rfl := mem_singleton.mp hid
    cases p <;> simp [toProtect, contends, Promotion.byLoop]
  case protectItem | inProgress =>
    obtain rfl := mem_singleton.mp hid
    exact .inr (.inl rfl)
  all_goals first
    | exact .inl hid
    | cases hid

/-- What the frame knows of rows is so, and the row it works on has left the
queue. -/
structure Known (world : World) (f : Frame) : Prop where
  keys : ∀ key ∈ f.keys, Located world.db key
  working : ∀ id ∈ f.working, OutOfQueue world.db id

theorem Known.of_mem_step (hf : Known world f)
    (hg : g ∈ (Update.step ω world f).frames ++ (Update.step ω world f).spawned)
    (hh : Handled (Update.step ω world f).shared g) :
    Known (Update.step ω world f).shared g := by
  obtain ⟨_, n, hexec, hs, hl⟩ | ⟨_, -, rfl, -⟩ := mem_step hg
  · rw [hs] at hh ⊢
    refine ⟨fun key hk => ?_, fun id hid => ?_⟩
    · obtain hk | hk := keys_of_leads hexec hl hk
      · exact (hf.keys key hk).execute hexec
      · exact hk
    · obtain hid | hid | hid := working_of_leads hl hid
      · exact (hf.working id hid).execute hexec
      · exact hh.toProtect id hid
      · exact hh.contends id hid
  · exact ⟨by rintro key ⟨⟩, by rintro id ⟨⟩⟩

theorem Known.others (hg : Known world g) : Known (Update.step ω world f).shared g := by
  refine ⟨fun key hk => ?_, fun id hid => (hg.working id hid).step⟩
  obtain ⟨_, n, hexec, hs⟩ | ⟨v, -, hs⟩ := step_cases ω world f
  · rw [hs]
    exact (hg.keys key hk).execute hexec
  · rw [hs]
    exact hg.keys key hk

/-- All frames know what they know. -/
structure Oriented (c : State) : Prop where
  tracked : Tracked c
  known : ∀ f ∈ c.frames, Known c.shared f

theorem oriented_move {c} (hc : Oriented c) (m) : Oriented (pipeline.move c m) := by
  refine ⟨tracked_move hc.tracked m, ?_⟩
  refine @Program.frames_invariant _ _ _ _ pipeline (fun c _ => Tracked c) Known ?_ ?_ ?_ c m
    hc.known hc.tracked
  · rintro world (_ | _ | _ | _ | _ | _ | _ | _) <;> exact ⟨by rintro _ ⟨⟩, by rintro _ ⟨⟩⟩
  · intro c i ω f hk htop ht g hg
    have hm := mem_frames_of_top htop
    exact (hk f hm).of_mem_step hg ((ht.handled f hm).of_mem_step ht.promoted hg)
  · exact fun c i ω f _ _ _ g _ hg => hg.others

/-! ## Stalled hosts -/

/-- The host has queued rows and nothing blocks it. -/
def Stalled (rows : List Row) (hostId : Uuid) : Prop :=
  (∃ r ∈ rows, r.hostId = hostId ∧ r.status = .queued) ∧
    ∀ r ∈ rows, r.hostId = hostId → r.status.hostBlocking = false

def advancedHosts (reaped : List Row) : List Uuid :=
  (reaped.filter fun r => r.batchId.isSome && r.executionOwnerServiceId.isSome).map (·.hostId)

def advancedPendingHosts (reaped : List Row) : List Uuid :=
  (reaped.filter fun r => r.batchId.isSome).map (·.hostId)

/-- The hosts that the frame is on its way to promote a row of.  A promotion for a
replay gives up when somebody else promotes the row that it has found. -/
def Frame.wakes (rows : List Row) : Frame → List Uuid
  | findServiceForBatch _ _ hostId | findServiceForQueue _ hostId => [hostId]
  | findQueued p => [p.hostId]
  | promote (.forReplay hostId) next =>
    if rows.any fun r => r.id == next.id && r.status == .queued then [hostId] else []
  | promote p _ => [p.hostId]
  | markOrchestratorFailed _ _ interrupted => interrupted.map (·.hostId)
  | listStalledPending _ reaped | selectStalledPending _ reaped _ | reapStalledPending _ reaped _ =>
    advancedHosts reaped
  | publishReaped reaped pendingReaped => advancedHosts reaped ++ advancedPendingHosts pendingReaped
  | _ => []

/-- Some task is on its way to wake each stalled host. -/
def Awake (c : State) : Prop :=
  ∀ hostId, Stalled c.rows hostId → ∃ f ∈ c.frames, hostId ∈ f.wakes c.rows

/-! ## The condition -/

def Statement.inserted : Statement → List Row
  | insert row => [row]
  | insertBatch _ _ rows => rows
  | _ => []

/-- The frame ends the row and promotes no row of its host afterwards. -/
def Frame.endsSilently (r : Row) : Frame → Bool
  | failBeforeAgentDispatch _ | recordProtection (.orchestrator _) _ | finalizeBatchItem _ _
  | markOrchestratorFailed _ _ _ | failDispatch (.handler _ _) _ _
  | failDispatch (.forReplay _) _ _ => true
  | reapOverdue _ overdue =>
    !overdue.any fun copy =>
      copy.id == r.id && copy.batchId.isSome && copy.executionOwnerServiceId.isSome
  | reapStalledPending _ _ candidates =>
    !candidates.any fun copy => copy.id == r.id && copy.batchId.isSome
  | _ => false

def Frame.lookup : Frame → Option Uuid
  | findServiceForBatch _ _ hostId | findServiceForQueue _ hostId => some hostId
  | _ => none

/-- The host has no queued rows. -/
def NoQueue (rows : List Row) (hostId : Uuid) : Prop :=
  ∀ r ∈ rows, r.hostId = hostId → r.status ≠ .queued

instance (rows : List Row) (hostId : Uuid) : Decidable (NoQueue rows hostId) :=
  inferInstanceAs (Decidable (∀ r ∈ rows, _))

/-- The move leaves no queued row behind: a row is queued only behind a row that
blocks its host, a row that is ended by a path that promotes nobody has no queued
row behind it, and the service that is to be advanced exists unless its host has
no queued rows. -/
def LeavesNoneBehind (c : State) : Move Operation Choice → Prop
  | .start _ => True
  | .run i ω => ∀ f ∈ c.top i,
      (∀ r ∈ (f.statement ω).inserted, r.status = .queued →
        ∃ r' ∈ c.rows ++ (f.statement ω).inserted,
          r'.hostId = r.hostId ∧ r'.status.hostBlocking = true) ∧
      (∀ w ∈ (f.statement ω).write?, ∀ r ∈ c.rows, w.guard r = true →
        r.status.hostBlocking = true → (w.set r).status.hostBlocking = false →
        f.endsSilently r = true → NoQueue c.rows r.hostId) ∧
      (∀ hostId ∈ f.lookup, ω.serviceTenantId = none → NoQueue c.rows hostId)

instance (c : State) : ∀ m : Move Operation Choice, Decidable (LeavesNoneBehind c m)
  | .start _ => inferInstanceAs (Decidable True)
  | .run i _ => inferInstanceAs (Decidable (∀ f ∈ c.top i, _))

/-! ## Steps -/

theorem Located.hostId_eq (h : Located db (id, hostId)) (hr : r ∈ db.history.rows)
    (hid : r.id = id) : r.hostId = hostId := by
  obtain ⟨r', hr', hk⟩ := h
  obtain ⟨hid', hh⟩ := Prod.mk.inj hk
  rw [eq_of_id_eq hr hr' (hid.trans hid'.symm), hh]

theorem Stalled.not_noQueue (h : Stalled rows hostId) : ¬ NoQueue rows hostId := by
  obtain ⟨⟨r, hr, hh, hq⟩, -⟩ := h
  exact fun hn => hn r hr hh hq

theorem Stalled.nextQueued (h : Stalled db.history.rows hostId) :
    ∃ next, db.nextQueued hostId = some next := by
  obtain ⟨⟨r, hr, hh, hq⟩, -⟩ := h
  rw [← Option.ne_none_iff_exists', Db.nextQueued, Ne, argmin_eq_none]
  refine ne_nil_of_mem (a := r) (mem_filter.mpr ⟨hr, ?_⟩)
  simp [hh, hq]

theorem mem_wakes_notifyFailedReconnectUpdate (rows : List Row) (serviceId : Uuid)
    (mode : SuccessorMode) (record : Row) :
    record.hostId ∈ (notifyFailedReconnectUpdate serviceId mode record).wakes rows := by
  cases mode <;> cases hb : record.batchId <;>
    simp [hb, wakes, Promotion.hostId]

theorem hostId_eq_of_wakes_promote {p next} (h : hostId ∈ (promote p next).wakes rows) :
    hostId = p.hostId := by
  cases p with
  | forHost | handler => exact mem_singleton.mp h
  | forReplay =>
    simp only [wakes] at h
    split at h
    · exact mem_singleton.mp h
    · cases h

/-- The unconditional failures are of rows that the frame works on. -/
theorem Frame.working_of_unconditional (hw : f.statement ω = .write w)
    (hu : w.unconditional = true) (hg : w.guard r = true) : r.id ∈ f.working := by
  cases f
  case failDispatch | failBeforeAgentDispatch =>
    cases hw
    simpa [Write.guard, working] using hg
  case recordProtection caller answer =>
    cases hw
    rw [guard_write] at hg
    simpa [working] using hg
  case finalizePostUpdate id =>
    cases hh : ω.recoveryHint with
    | none => simp [statement, hh] at hw
    | some =>
      simp only [statement, hh] at hw
      cases hw
      cases hu
  all_goals
    cases hw
    try cases hu

/-- A row leaves the queue as a pending row. -/
theorem pending_of_leaves_queue (hf : Known ⟨db, log⟩ f) (hw : f.statement ω = .write w)
    (hr : r ∈ db.history.rows) (hq : r.status = .queued)
    (hl : (w.row r).status ≠ .queued) : (w.row r).status = .pending := by
  obtain ⟨hg, _⟩ := of_row_status_ne (hq ▸ hl)
  have hc : w.unconditional = false := by
    by_contra h
    exact (hf.working r.id (working_of_unconditional hw (by simpa using h) hg)).not_queued hr rfl hq
  have ha := accepts_of_guard hg
  cases w <;> simp_all [accepts, target, unconditional]

section Wakes

variable (hexec : db.execute (f.statement ω) = .ok (db', n)) (hf : Known ⟨db, log⟩ f)

include hexec hf

/-- A promotion that matches its row blocks the host. -/
theorem not_stalled_of_promoted {p next} (hp : f = .promote p next) (hn : n ≠ 0) :
    ¬ Stalled db'.history.rows p.hostId := by
  subst hp
  obtain ⟨r, hr, _, hse⟩ := Db.exists_of_affected hexec hn
  have hid : r.id = next.id := by simp_all [Write.guard]
  have hh := (hf.keys _ mem_cons_self).hostId_eq hr hid
  intro hs
  cases hs.2 _ hse ((set_hostId _ _).trans hh)

/-- A frame on its way to wake a stalled host passes this on. -/
theorem wakes_next
    (hl : ∀ hostId ∈ f.lookup, ω.serviceTenantId = none → NoQueue db.history.rows hostId)
    (hw : hostId ∈ f.wakes db.history.rows) (hs : Stalled db.history.rows hostId)
    (hs' : Stalled db'.history.rows hostId) :
    ∃ g ∈ (f.next ω db n).frames ++ (f.next ω db n).spawned, hostId ∈ g.wakes db'.history.rows := by
  cases f
  case findServiceForBatch | findServiceForQueue =>
    obtain rfl := mem_singleton.mp hw
    cases ht : ω.serviceTenantId with
    | none => exact absurd (hl hostId rfl ht) hs.not_noQueue
    | some => simp [Frame.next, ht, wakes, Promotion.hostId]
  case findQueued p =>
    obtain rfl := mem_singleton.mp hw
    obtain ⟨next, hne⟩ := hs.nextQueued
    refine ⟨.promote p next, by simp [Frame.next, hne], ?_⟩
    cases p with
    | forHost | handler => exact hw
    | forReplay =>
      obtain ⟨hm, -, hq⟩ := Db.mem_of_nextQueued hne
      have hm' : next ∈ db'.history.rows := by
        rw [Db.rows_of_execute hexec]
        exact hm
      have han : (db'.history.rows.any fun r => r.id == next.id && r.status == .queued) = true :=
        any_eq_true.mpr ⟨next, hm', by simp [hq]⟩
      rw [wakes, if_pos han]
      exact hw
  case promote p next =>
    by_cases hn : n = 0
    · cases p with
      | forHost | handler =>
        subst hn
        exact ⟨_, mem_singleton.mpr rfl, hw⟩
      | forReplay =>
        -- the row is still queued, so the promotion has matched it
        simp only [wakes] at hw
        split at hw
        · rename_i han
          obtain ⟨r, hr, hq⟩ := any_eq_true.mp han
          have hg := (Db.affected_eq_zero_iff hexec).mp hn r hr
          rw [Write.guard, hq] at hg
          cases hg
        · cases hw
    · have hh : hostId = p.hostId := hostId_eq_of_wakes_promote hw
      exact absurd (hh ▸ hs') (not_stalled_of_promoted hexec hf rfl hn)
  case markOrchestratorFailed serviceId mode interrupted =>
    obtain ⟨record, hre, rfl⟩ := mem_map.mp hw
    refine ⟨.notifyFailedReconnectUpdate serviceId mode record, ?_,
      mem_wakes_notifyFailedReconnectUpdate _ _ _ _⟩
    simp only [Frame.next, append_nil, mem_append, mem_flatMap]
    exact .inl ⟨record, hre, by simp⟩
  case listStalledPending | selectStalledPending =>
    rw [Frame.next]
    split
    · exact ⟨_, mem_singleton.mpr rfl, mem_append_left _ hw⟩
    · exact ⟨_, mem_singleton.mpr rfl, hw⟩
  case reapStalledPending => exact ⟨_, mem_singleton.mpr rfl, mem_append_left _ hw⟩
  case publishReaped reaped pendingReaped =>
    simp only [Frame.next, append_nil, mem_append, mem_flatMap]
    obtain hw | hw := mem_append.mp hw
    · obtain ⟨row, hro, rfl⟩ := mem_map.mp hw
      obtain ⟨hro, ha⟩ := mem_filter.mp hro
      rw [and_eq_true, Option.isSome_iff_exists, Option.isSome_iff_exists] at ha
      obtain ⟨⟨batchId, hb⟩, serviceId, hse⟩ := ha
      exact ⟨.findServiceForBatch serviceId batchId row.hostId,
        .inl ⟨row, hro, by simp [hb, hse]⟩, mem_singleton.mpr rfl⟩
    · obtain ⟨row, hro, rfl⟩ := mem_map.mp hw
      obtain ⟨hro, ha⟩ := mem_filter.mp hro
      obtain ⟨batchId, hb⟩ := Option.isSome_iff_exists.mp ha
      exact ⟨.findQueued (.forHost ⟨row.hostId, row.tenantId, some batchId, none⟩),
        .inr ⟨row, hro, by simp [hb]⟩, mem_singleton.mpr rfl⟩
  all_goals cases hw

/-- What one task does takes a stalled host from no other task. -/
theorem wakes_others (hg : Known ⟨db, log⟩ g) (hw : hostId ∈ g.wakes db.history.rows)
    (hst : Stalled db'.history.rows hostId) : hostId ∈ g.wakes db'.history.rows := by
  cases g
  case promote p next =>
    cases p with
    | forHost | handler => exact hw
    | forReplay =>
      simp only [wakes] at hw ⊢
      split at hw
      · rename_i ha
        obtain rfl := mem_singleton.mp hw
        obtain ⟨r, hr, hq⟩ := any_eq_true.mp ha
        rw [and_eq_true, beq_iff_eq, beq_iff_eq] at hq
        obtain ⟨hid, hq⟩ := hq
        have hh : r.hostId = hostId := (hg.keys _ mem_cons_self).hostId_eq hr hid
        rw [if_pos]
        · exact mem_singleton.mpr rfl
        · rw [Db.rows_of_execute hexec] at hst ⊢
          rw [any_eq_true]
          cases hs : f.statement ω with
          | write w =>
            rw [hs] at hst
            refine ⟨w.row r, mem_map_of_mem hr, ?_⟩
            have hsti : (w.row r).status = .queued := by
              by_contra hl
              have hfr := hst.2 _ (mem_map_of_mem hr) ((w.row_hostId r).trans hh)
              rw [pending_of_leaves_queue hf hs hr hq hl] at hfr
              cases hfr
            simp [hid, hsti]
          | read | completeBatch => exact ⟨r, hr, by simp [hid, hq]⟩
          | insert | insertBatch => exact ⟨r, mem_append_left _ hr, by simp [hid, hq]⟩
      · cases hw
  all_goals exact hw

omit hexec hf in
/-- A copy of a row that a statement matches is among the matched copies. -/
theorem exists_matched {copies : List Row} {b} (hb : b ∈ db.history.rows)
    (hg : w.guard b = true) (hid : b.id ∈ copies.map (·.id))
    (hl : ∀ key ∈ copies.map Row.key, Located db key) :
    ∃ copy ∈ db.matched w copies, copy.hostId = b.hostId := by
  obtain ⟨copy, hc, hid⟩ := mem_map.mp hid
  refine ⟨copy, mem_filter.mpr ⟨hc, ?_⟩,
    ((hl copy.key (mem_map_of_mem hc)).hostId_eq hb hid.symm).symm⟩
  exact any_eq_true.mpr ⟨b, hb, by simp [hid, hg]⟩

/-- A frame that ends a row blocking its host, and does not do so silently, is on
its way to wake the host. -/
theorem wakes_of_ended {b} (hw : f.statement ω = .write w) (hb : b ∈ db.history.rows)
    (hg : w.guard b = true) (hbl : b.status.hostBlocking = true)
    (he : (w.set b).status.hostBlocking = false) (hl : f.endsSilently b = false) :
    ∃ g ∈ (f.next ω db n).frames ++ (f.next ω db n).spawned,
      b.hostId ∈ g.wakes db'.history.rows := by
  have hn : n ≠ 0 := by
    intro hn
    rw [(Db.affected_eq_zero_iff (hw ▸ hexec)).mp hn b hb] at hg
    cases hg
  have hh : ∀ id hostId, (id, hostId) ∈ f.keys → b.id = id → b.hostId = hostId :=
    fun id hostId hm hid => (hf.keys _ hm).hostId_eq hb hid
  have ht : ∃ s ∈ w.target, s.hostBlocking = false := by
    rw [set_status] at he
    cases ht : w.target with
    | none => simp [ht, hbl] at he
    | some s => exact ⟨s, rfl, by simpa [ht] using he⟩
  cases f
  case failDispatch p next e =>
    cases p with
    | forHost l =>
      cases hw
      have hid : b.id = next.id := by simpa [Write.guard] using hg
      refine ⟨.findQueued (.forHost l), by simp [Frame.next], ?_⟩
      rw [hh _ _ mem_cons_self hid]
      exact mem_singleton.mpr rfl
    | handler | forReplay => cases hl
  case recordProtection caller answer =>
    cases hw
    have hid : b.id = caller.updateHistoryId := by simpa [guard_write] using hg
    have hfa : answer.failed = true := by
      by_contra h
      obtain ⟨s, hs, -⟩ := ht
      rw [target_write (by simpa using h)] at hs
      cases hs
    cases caller with
    | promotion l next =>
      refine ⟨.findQueued (.forHost l), by simp [Frame.next, hfa], ?_⟩
      rw [hh _ _ mem_cons_self hid]
      exact mem_singleton.mpr rfl
    | orchestrator => cases hl
    | batch =>
      refine ⟨_, by simp only [Frame.next, hfa]; exact mem_singleton.mpr rfl, ?_⟩
      rw [hh _ _ mem_cons_self hid]
      exact mem_singleton.mpr rfl
  case finalizeUpdateResult record args _ | failPendingUnowned record args _ =>
    cases hw
    have hid : b.id = record.id := by simp_all [Write.guard]
    refine ⟨.successor args.serviceId record, ?_, ?_⟩
    · simp [Frame.next, hn]
    · rw [hh _ _ (mem_singleton.mpr rfl) hid]
      cases hba : record.batchId <;> simp [hba, wakes]
  case markOwnedInterrupted serviceId runtimeInstanceId mode candidates =>
    cases hw
    have hid : b.id ∈ candidates.map (·.id) := by simp_all [Write.guard]
    obtain ⟨copy, hc, hco⟩ := exists_matched hb hg hid hf.keys
    exact ⟨_, mem_singleton.mpr rfl, mem_map.mpr ⟨copy, hc, hco⟩⟩
  case failUnreplayable replay record rest =>
    cases hw
    have hid : b.id = record.id := by simp_all [Write.guard]
    refine ⟨.notifyFailedReconnectUpdate replay.serviceId .replayPrepared record, ?_, ?_⟩
    · simp [Frame.next, hn]
    · rw [hh _ _ mem_cons_self hid]
      exact mem_wakes_notifyFailedReconnectUpdate _ _ _ _
  case reapOverdue now overdue =>
    simp only [endsSilently, not_eq_false', any_eq_true, and_eq_true, beq_iff_eq] at hl
    obtain ⟨copy, hc, ⟨hid, hba⟩, ho⟩ := hl
    refine ⟨.listStalledPending now overdue, mem_singleton.mpr rfl, ?_⟩
    rw [hh _ _ (mem_map_of_mem hc) hid.symm]
    exact mem_map_of_mem (mem_filter.mpr ⟨hc, by simp [hba, ho]⟩)
  case reapStalledPending now reaped candidates =>
    simp only [endsSilently, not_eq_false', any_eq_true, and_eq_true, beq_iff_eq] at hl
    obtain ⟨copy, hc, hid, hba⟩ := hl
    refine ⟨.publishReaped reaped candidates, mem_singleton.mpr rfl, mem_append_right _ ?_⟩
    rw [hh _ _ (mem_map_of_mem hc) hid.symm]
    exact mem_map_of_mem (mem_filter.mpr ⟨hc, hba⟩)
  case markRollout candidates =>
    cases hw
    have hid : b.id ∈ candidates.map (·.id) := by simp_all [Write.guard]
    obtain ⟨copy, hc, hco⟩ := exists_matched hb hg hid hf.keys
    refine ⟨.findQueued (.forHost ⟨copy.hostId, copy.tenantId, copy.batchId, none⟩), ?_, ?_⟩
    · simp only [Frame.next, append_nil, mem_flatMap]
      exact ⟨copy, hc, by simp⟩
    · rw [← hco]
      exact mem_singleton.mpr rfl
  case finalizePostUpdate id =>
    cases hhi : ω.recoveryHint with
    | none => simp [statement, hhi] at hw
    | some =>
      simp only [statement, hhi] at hw
      cases hw
      simp [target] at ht
  case failBeforeAgentDispatch | finalizeBatchItem | markOrchestratorFailed => cases hl
  -- the other frames end no row
  all_goals cases hw
  all_goals simp [target, Status.hostBlocking] at ht

end Wakes

/-- A host that stalls in a step, with a row that was queued before, had a row that
the step ends. -/
theorem ended_of_stalled (hs' : Stalled (rows.map w.row) hostId)
    (hs : ¬ Stalled rows hostId) :
    ¬ NoQueue rows hostId ∧ ∃ b ∈ rows, b.hostId = hostId ∧ w.guard b = true ∧
      b.status.hostBlocking = true ∧ (w.set b).status.hostBlocking = false := by
  obtain ⟨⟨r', hr', hh, hq⟩, hf⟩ := hs'
  obtain ⟨r, hr, rfl⟩ := mem_map.mp hr'
  rw [row_hostId] at hh
  have hrq : r.status = .queued := by
    by_contra h
    exact row_status_ne_queued h hq
  refine ⟨fun hn => hn r hr hh hrq, ?_⟩
  obtain ⟨b, hb, hbh, hbl⟩ : ∃ b ∈ rows, b.hostId = hostId ∧ b.status.hostBlocking = true := by
    by_contra hn
    push Not at hn
    exact hs ⟨⟨r, hr, hh, hrq⟩, fun b hb hbh => by simpa using hn b hb hbh⟩
  have hbf := hf _ (mem_map_of_mem hb) ((w.row_hostId b).trans hbh)
  have hg : w.guard b = true := by
    by_contra h
    rw [row, if_neg h, hbl] at hbf
    cases hbf
  rw [row, if_pos hg] at hbf
  exact ⟨b, hb, hbh, hg, hbl, hbf⟩

section Move

variable {c : State} {i : Nat} (hc : Oriented c)
  (htop : c.top i = some f) (hm : LeavesNoneBehind c (.run i ω)) (hawake : Awake c)

include hc htop hm hawake

theorem awake_executed (hexec : c.shared.db.execute (f.statement ω) = .ok (db, n)) :
    Awake (pipeline.move c (.run i ω)) := by
  intro hostId hst'
  have hfra := frames_move htop hexec
  obtain ⟨_, hi⟩ := exists_of_top htop
  have hf := hc.known f (mem_frames_of_top htop)
  obtain ⟨hin, he, hl⟩ := hm f htop
  have hro : State.rows (pipeline.move c (.run i ω)) = db.history.rows := by
    rw [State.rows, shared_move htop hexec]
  rw [hro] at hst' ⊢
  by_cases hst : Stalled c.rows hostId
  · obtain ⟨g, hg, hw⟩ := hawake hostId hst
    rw [(frames_perm hi).mem_iff, mem_cons] at hg
    obtain rfl | hg := hg
    · obtain ⟨g', hg', hw'⟩ := wakes_next hexec hf hl hw hst hst'
      exact ⟨g', hfra.mem_iff.mpr (mem_append_left _ hg'), hw'⟩
    · have hme : g ∈ c.frames := (frames_perm hi).mem_iff.mpr (mem_cons_of_mem _ hg)
      exact ⟨g, hfra.mem_iff.mpr (mem_append_right _ hg),
        wakes_others hexec hf (hc.known g hme) hw hst'⟩
  · rw [Db.rows_of_execute hexec] at hst'
    cases hs : f.statement ω with
    | write w =>
      rw [hs] at hst'
      obtain ⟨hqu, b, hb, rfl, hgu, hbl, hfr⟩ := ended_of_stalled hst' hst
      have hlo : f.endsSilently b = false := by
        by_contra h
        exact hqu (he w (by simp [hs, Statement.write?]) b hb hgu hbl hfr (by simpa using h))
      obtain ⟨g, hg, hw⟩ := wakes_of_ended hexec hf hs hb hgu hbl hfr hlo
      exact ⟨g, hfra.mem_iff.mpr (mem_append_left _ hg), hw⟩
    | read | completeBatch =>
      rw [hs] at hst'
      exact absurd hst' hst
    | insert | insertBatch =>
      rw [hs] at hst' hin
      obtain ⟨⟨r, hr, hh, hq⟩, hfr⟩ := hst'
      obtain hr | hr := mem_append.mp hr
      · exact absurd ⟨⟨r, hr, hh, hq⟩, fun r' hr' => hfr r' (mem_append_left _ hr')⟩ hst
      · obtain ⟨r', hr', hh', hbl⟩ := hin r hr hq
        rw [hfr r' hr' (hh'.trans hh)] at hbl
        cases hbl

end Move

/-- A frame on its way to wake a host is only refused when a row blocks the
host. -/
theorem not_stalled_of_refused (he : db.execute (f.statement ω) = .error v)
    (hf : Known ⟨db, log⟩ f) (hw : hostId ∈ f.wakes db.history.rows) :
    ¬ Stalled db.history.rows hostId := by
  cases f
  case promote p next =>
    obtain ⟨r, hr, hpr, -, r', hr', hh, hb⟩ := Db.of_write_error he
    have hid : r.id = next.id := (promote.inj hpr).symm
    have hp : hostId = p.hostId := hostId_eq_of_wakes_promote hw
    intro hs
    have hfr := hs.2 r' hr'
      ((hh.trans ((hf.keys _ mem_cons_self).hostId_eq hr hid)).trans hp.symm)
    rw [hb] at hfr
    cases hfr
  case markOrchestratorFailed | reapStalledPending =>
    obtain ⟨r, -, hpr, -⟩ := Db.of_write_error he
    cases hpr
  all_goals first
    | cases he
    | cases hw

theorem awake_refused {c i} (hc : Oriented c) (htop : c.top i = some f) (hawake : Awake c)
    (he : c.shared.db.execute (f.statement ω) = .error v) :
    Awake (pipeline.move c (.run i ω)) := by
  obtain ⟨hsh, hf⟩ := refused_move htop he
  obtain ⟨_, hi⟩ := exists_of_top htop
  intro hostId hs
  rw [State.rows, hsh] at hs ⊢
  obtain ⟨g, hg, hw⟩ := hawake hostId hs
  rw [(frames_perm hi).mem_iff, mem_cons] at hg
  obtain rfl | hg := hg
  · exact absurd hs (not_stalled_of_refused he (hc.known g (mem_frames_of_top htop)) hw)
  · exact ⟨g, hf.mem_iff.mpr (mem_append_right _ hg), hw⟩

/-- The frames know their rows and stalled hosts are about to be woken. -/
structure Attended (c : State) : Prop where
  oriented : Oriented c
  awake : Awake c

theorem attended_move (c m) (hc : Attended c) (hm : LeavesNoneBehind c m) :
    Attended (pipeline.move c m) := by
  refine ⟨oriented_move hc.oriented m, ?_⟩
  cases m with
  | start =>
    intro hostId hs
    obtain ⟨g, hg, hw⟩ := hc.awake hostId hs
    rw [Program.move_start_frames]
    exact ⟨g, mem_append_left _ hg, hw⟩
  | run i ω =>
    cases htop : c.top i with
    | none =>
      rw [Program.move_run_of_top_none htop]
      exact hc.awake
    | some f =>
      cases hexec : c.shared.db.execute (f.statement ω) with
      | ok => exact awake_executed hc.oriented htop hm hc.awake hexec
      | error => exact awake_refused hc.oriented htop hc.awake hexec

/-- In every run that leaves no queued row behind, whenever nothing is in flight,
a host with a queued row has a row that blocks it. -/
theorem queue_never_stalls (moves : List (Move Operation Choice))
    (hm : pipeline.Meets LeavesNoneBehind initial moves)
    (hq : (pipeline.run initial moves).Quiescent) {r : Row}
    (hr : r ∈ State.rows (pipeline.run initial moves)) (hqu : r.status = .queued) :
    ∃ r' ∈ State.rows (pipeline.run initial moves),
      r'.hostId = r.hostId ∧ r'.status.hostBlocking = true := by
  have hi : Attended initial :=
    ⟨⟨tracked_initial, by rintro f ⟨⟩⟩, by rintro hostId ⟨⟨r, hr, -⟩, -⟩; cases hr⟩
  have ha := Program.run_invariant (P := pipeline) attended_move hi hm
  by_contra hn
  push Not at hn
  obtain ⟨f, hf, -⟩ := ha.awake r.hostId
    ⟨⟨r, hr, rfl, hqu⟩, fun r' hr' hh => by simpa using hn r' hr' hh⟩
  rw [hq] at hf
  cases hf

/-- Two updates are triggered on host 7, the second is queued behind the first. -/
def twoTriggered : List (Move Operation Choice) :=
  triggered ++ .start (triggerOnHost 2) :: steps 2 4 { newId := fun _ => 2 }

/-- A third update is queued, the agent completes the first and the second is
promoted; the agent has gone offline before its orchestrator runs. -/
def completedPromotes : List (Move Operation Choice) :=
  twoTriggered ++ .start (triggerOnHost 3) :: steps 3 4 { newId := fun _ => 3 } ++
    steps 1 1 { connected := false } ++
    .start (.updateStarted 1 5 (some 6) false) :: steps 4 2 { linkedHostIds := [7] } ++
    .start (.updateResult 1 ⟨5, some 6, .completed, none, "", none, some "2"⟩ false) ::
      steps 5 7 { linkedHostIds := [7] } ++
    steps 6 1 { connected := false }

/-- The third update waits behind the second. -/
theorem queue_completedPromotes :
    (State.rows (pipeline.run initial completedPromotes)).map (·.status) =
        [.completed, .pending, .queued] ∧
      ∃ r' ∈ State.rows (pipeline.run initial completedPromotes),
        r'.hostId = 7 ∧ r'.status.hostBlocking = true := by
  have hq : ∃ r ∈ State.rows (pipeline.run initial completedPromotes),
      r.hostId = 7 ∧ r.status = .queued := by decide
  obtain ⟨r, hr, hh, hq⟩ := hq
  refine ⟨by decide, ?_⟩
  rw [← hh]
  exact queue_never_stalls completedPromotes (by decide) rfl hr hq

/-- The protection of the first update fails. -/
def failedProtection : List (Move Operation Choice) :=
  twoTriggered ++ steps 1 5 { protection := some .error }

/-- Its orchestrator promotes nobody: the second update is queued with nothing in
flight and nothing blocking its host. -/
theorem failedProtection_stalls :
    (pipeline.run initial failedProtection).Quiescent ∧
      (State.rows (pipeline.run initial failedProtection)).map (fun r => (r.hostId, r.status)) =
        [(7, .failed), (7, .queued)] :=
  ⟨rfl, by decide⟩

end Uptrakit.Update
