import Uptrakit.Update.Orchestrator

/-!
# Protection of promoted updates

A row that leaves the queue is protected either by `dispatch_next_queued_for_host`
itself or by an orchestrator.  Orchestrators compete for a pending row with a
compare-and-set; the loop runs the protection on the row it promoted without one,
and the row stays pending and without a protection status until the outcome is
recorded.  A reconnecting agent takes such a row for one nobody works on and hands
it to an orchestrator, which protects it a second time.

When no replay reads a row that a loop is still protecting, each promoted row is
protected at most once: the runs started and the frames bound to start one are
counted together, and only the promotion and the compare-and-set raise the count.
-/

namespace Uptrakit.Update

open Concurrent List State Config ProtectionAnswer Nat
open Update.Frame hiding next

/-! ## What frames are going to do -/

def BatchRun.toDispatch (run : BatchRun) : List Uuid :=
  (run.items.filter (·.shouldDispatch)).map (·.updateHistoryId)

/-- The items of a new batch that `create_batch` still dispatches after a
promotion loop it called. -/
def Promotion.toDispatch : Promotion → List Uuid
  | forHost l => (l.resume.map BatchRun.toDispatch).getD []
  | handler _ _ | forReplay _ => []

def Caller.toDispatch : Caller → List Uuid
  | promotion l _ => (Promotion.forHost l).toDispatch
  | orchestrator _ => []
  | batch item rest => item.updateHistoryId :: rest.toDispatch

namespace Frame

/-- The update whose protection the frame is bound to start. -/
def toProtect : Frame → Option Uuid
  | loadTarget (.forHost _) next => some next.id
  | prepareProtection caller => some caller.updateHistoryId
  | _ => none

def contends : Frame → List Uuid
  | loadTarget p next => if p.byLoop then [] else [next.id]
  | checkConnected id | setInprogress id => [id]
  | preparePendingRecords _ records | failUnreplayable _ _ records =>
    (records.filter (·.preUpdateProtectionStatus == none)).map (·.id)
  | _ => []

/-- The items of a new batch that `create_batch` is going to dispatch. -/
def batchItems : Frame → List Uuid
  | dispatchItems run => run.toDispatch
  | findQueued p | promote p _ | loadTarget p _ | failDispatch p _ _ => p.toDispatch
  | prepareProtection caller | recordProtection caller _ | dispatchUpdateToAgent caller =>
    caller.toDispatch
  | _ => []

/-- The row that `dispatch_next_queued_for_host` has promoted and whose protection
it has not yet recorded. -/
def protecting : Frame → List Uuid
  | loadTarget (.forHost _) next | prepareProtection (.promotion _ next)
  | recordProtection (.promotion _ next) _ => [next.id]
  | _ => []

/-- The items of a batch are passed on, from the insert of the batch. -/
theorem batchItems_of_leads {ω db n} {f : Frame} {g} (h : f.Leads ω db n g) {id}
    (hid : id ∈ g.batchItems) :
    id ∈ f.batchItems ∨ ∃ tenantId validated busy, f = insertBatch tenantId validated busy ∧
      id ∈ (batchRun ω.batchId tenantId (batchRows ω tenantId validated busy)).toDispatch := by
  cases h
  case batchInserted tenantId validated busy => exact .inr ⟨tenantId, validated, busy, rfl, hid⟩
  case protectItem run item rest hi hd =>
    simpa [batchItems, Caller.toDispatch, BatchRun.toDispatch, hi, hd] using hid
  case skipItem run item rest hi =>
    left
    simp only [batchItems, BatchRun.toDispatch, hi, mem_map, mem_filter, mem_cons] at hid ⊢
    obtain ⟨b, ⟨hb, hd⟩, rfl⟩ := hid
    exact ⟨b, ⟨.inr hb, hd⟩, rfl⟩
  case queueEmptyResume l run hr =>
    simpa [batchItems, Promotion.toDispatch, hr] using hid
  case dispatchedResume l next run hr =>
    simpa [batchItems, Caller.toDispatch, Promotion.toDispatch, hr] using hid
  case dispatchedItem item rest => exact .inl (mem_cons_of_mem _ hid)
  case unprotectedItem item rest answer =>
    exact .inl (mem_cons_of_mem _ (by simpa [batchItems, Promotion.toDispatch] using hid))
  all_goals first
    | exact .inl hid
    | cases hid

variable (ω : Choice) (db : Db) (n : Nat) in
/-- How a task comes to compete for an update: it did before, it inserted or
promoted the row, or a replay read it. -/
inductive Contends : Frame → Uuid → Prop
  | before {f : Frame} {id} (mem : id ∈ f.contends) : Contends f id
  | inserted (params) : Contends (insertPending params) (ω.newId 0)
  | promoted (p next) (affected : n ≠ 0) : Contends (promote p next) next.id
  | replayed (serviceId r) (mem : r ∈ db.pendingUpdates ω.linkedHostIds)
      (unprotected : r.preUpdateProtectionStatus = none) :
      Contends (loadPendingUpdateRecords serviceId) r.id

theorem contends_of_leads {ω db n} {f : Frame} {g} (h : f.Leads ω db n g) {id}
    (hid : id ∈ g.contends) : Contends ω db n f id := by
  cases h
  case orchestrate params =>
    obtain rfl := mem_singleton.mp hid
    exact .inserted params
  case promoted p next hn =>
    obtain rfl : id = next.id := by cases p <;> simp_all [contends]
    exact .promoted p next hn
  case handOver p next hb => exact .before (by simpa [contends, hb] using hid)
  case agentConnected | replayRest => exact .before hid
  case pendingLoaded serviceId =>
    obtain ⟨r, hr, rfl⟩ := mem_map.mp hid
    obtain ⟨hr, hno⟩ := mem_filter.mp hr
    exact .replayed serviceId r hr (beq_iff_eq.mp hno)
  case replayOrchestrate replay record rest hu =>
    obtain rfl := mem_singleton.mp hid
    exact .before (by simp [contends, hu])
  case replayNext | unreplayable =>
    exact .before (((sublist_cons_self _ _).filter _).map _ |>.subset hid)
  all_goals cases hid

end Frame

variable {db db' : Db} {r : Row} {n : Nat} {id : Uuid} {ω : Choice} {f : Frame} {world : World}
  {c : State} {answer : ProtectionAnswer} {m : Move Operation Choice} {v : Violation}

theorem mem_pendingUpdates {hostIds} (h : r ∈ db.pendingUpdates hostIds) :
    r ∈ db.history.rows ∧ r.status = .pending := by
  simp only [Db.pendingUpdates, mem_insertionSort, mem_filter, Bool.and_eq_true, beq_iff_eq] at h
  exact ⟨h.1, h.2.2⟩

/-! ## Rows that have left the queue -/

/-- The row exists and is no longer queued. -/
def OutOfQueue (db : Db) (id : Uuid) : Prop := ∃ r ∈ db.history.rows, r.id = id ∧ r.status ≠ .queued

/-- A reported outcome ends the update. -/
theorem FinalStatus.toStatus_ne {s : FinalStatus} {status : Status}
    (h : status.unfinished = true) : s.toStatus ≠ status := by
  rintro rfl
  cases s <;> cases h

/-- No statement puts a row back into the queue. -/
theorem Write.target_ne_queued (w : Write) : w.target ≠ some .queued := by
  cases w <;> simp [target]
  all_goals exact FinalStatus.toStatus_ne rfl

theorem Write.row_status_ne_queued {w : Write} (h : r.status ≠ .queued) :
    (w.row r).status ≠ .queued := by
  intro hq
  have hc : (w.row r).status ≠ r.status := hq ▸ h.symm
  exact w.target_ne_queued (hq ▸ (of_row_status_ne hc).2)

namespace OutOfQueue

variable {db db' : Db} {n : Nat} {id : Uuid}

theorem execute {s} (h : OutOfQueue db id) (hexec : db.execute s = .ok (db', n)) :
    OutOfQueue db' id :=
  Db.exists_of_execute hexec
    (fun w _ r ⟨hid, hs⟩ => ⟨(w.row_id r).trans hid, Write.row_status_ne_queued hs⟩) h

/-- A row that a status change matched has left the queue. -/
theorem of_affected {w s} (hexec : db.execute (.write w) = .ok (db', n)) (hn : n ≠ 0)
    (hid : ∀ r, w.guard r = true → r.id = id) (ht : w.target = some s) :
    OutOfQueue db' id := by
  obtain ⟨r, -, hg, hs⟩ := Db.exists_of_affected hexec hn
  refine ⟨_, hs, (w.set_id r).trans (hid r hg), ?_⟩
  rw [Write.set_status, ht]
  rintro rfl
  exact w.target_ne_queued ht

theorem step (h : OutOfQueue world.db id) : OutOfQueue (step ω world f).shared.db id := by
  obtain ⟨_, n, hexec, hs⟩ | ⟨v, -, hs⟩ := step_cases ω world f
  · rw [hs]
    exact h.execute hexec
  · rwa [hs]

theorem move (h : OutOfQueue c.shared.db id) (m) : OutOfQueue (pipeline.move c m).shared.db id :=
  Program.shared_move (P := pipeline) (p := fun world => OutOfQueue world.db id) h
    fun _ _ _ _ _ => h.step

end OutOfQueue

theorem exists_queued_of_promoted (hexec : db.execute (.write (.promote id)) = .ok (db', n))
    (hn : n ≠ 0) : ∃ r ∈ db.history.rows, r.id = id ∧ r.status = .queued := by
  obtain ⟨r, hr, hg, -⟩ := Db.exists_of_affected hexec hn
  exact ⟨r, hr, by simpa [Write.guard] using hg⟩

theorem OutOfQueue.not_queued (h : OutOfQueue db id) (hr : r ∈ db.history.rows) (hid : r.id = id) :
    r.status ≠ .queued := by
  obtain ⟨r', hr', hid', _⟩ := h
  rwa [eq_of_id_eq hr hr' (hid.trans hid'.symm)]

/-- The log says that the row was promoted. -/
def Promoted (log : List Event) (id : Uuid) : Prop := ∃ byLoop, .promoted id byLoop ∈ log

/-- The rows that the frame works on have left the queue, and those of a new
batch were never in it. -/
structure Handled (world : World) (f : Frame) : Prop where
  toProtect : ∀ id ∈ f.toProtect, OutOfQueue world.db id
  contends : ∀ id ∈ f.contends, OutOfQueue world.db id
  batchItems : ∀ id ∈ f.batchItems, OutOfQueue world.db id ∧ ¬ Promoted world.log id

/-- What is promoted in a step was queued before it. -/
theorem promoted_of_next (hexec : db.execute (f.statement ω) = .ok (db', n))
    (h : Promoted (f.next ω db n).events id) :
    ∃ p next, f = .promote p next ∧ next.id = id ∧ n ≠ 0 ∧
      ∃ r ∈ db.history.rows, r.id = id ∧ r.status = .queued := by
  obtain ⟨_, hm⟩ := h
  cases emits_of_mem_events hm with
  | promoted p next hn => exact ⟨p, next, rfl, rfl, hn, exists_queued_of_promoted hexec hn⟩

theorem not_promoted_step (ho : OutOfQueue world.db id) (h : ¬ Promoted world.log id) :
    ¬ Promoted (step ω world f).shared.log id := by
  obtain ⟨_, n, hexec, hs⟩ | ⟨v, -, hs⟩ := step_cases ω world f
  · rw [hs]
    rintro ⟨byLoop, hm⟩
    obtain hm | hm := mem_append.mp hm
    · exact h ⟨byLoop, hm⟩
    · obtain ⟨-, -, -, -, -, r, hr, hid, hq⟩ := promoted_of_next hexec ⟨byLoop, hm⟩
      exact ho.not_queued hr hid hq
  · rwa [hs]

theorem Handled.others {g} (h : Handled world g) : Handled (step ω world f).shared g where
  toProtect id hid := (h.toProtect id hid).step
  contends id hid := (h.contends id hid).step
  batchItems id hid :=
    ⟨(h.batchItems id hid).1.step,
      not_promoted_step (h.batchItems id hid).1 (h.batchItems id hid).2⟩

section Leads

variable {ω : Choice} {db db' : Db} {n : Nat} {f g : Frame} {log : List Event}
  (hexec : db.execute (f.statement ω) = .ok (db', n)) (h : f.Leads ω db n g)
  (hf : Handled ⟨db, log⟩ f)

include hexec h hf

theorem outOfQueue_of_toProtect (hid : id ∈ g.toProtect) : OutOfQueue db' id := by
  cases h
  case promoted p next hn =>
    cases p with
    | forHost =>
      obtain rfl := Option.some.inj hid
      exact .of_affected hexec hn (fun r hr => by simp_all [Write.guard]) rfl
    | handler | forReplay => cases hid
  case protectPromoted l next => exact (hf.toProtect id hid).execute hexec
  case inProgress id' hn =>
    obtain rfl := Option.some.inj hid
    exact .of_affected hexec hn (fun r hr => by simp_all [Write.guard, Caller.updateHistoryId]) rfl
  case protectItem run item rest hi hd =>
    refine (hf.batchItems id ?_).1.execute hexec
    obtain rfl := Option.some.inj hid
    simp [batchItems, BatchRun.toDispatch, hi, hd, Caller.updateHistoryId]
  all_goals cases hid

theorem outOfQueue_of_contends (hid : id ∈ g.contends) : OutOfQueue db' id := by
  cases contends_of_leads h hid with
  | before hm => exact (hf.contends id hm).execute hexec
  | inserted =>
    rw [OutOfQueue, Db.rows_of_execute hexec]
    exact ⟨_, mem_append_right _ (mem_singleton.mpr rfl), rfl, by
      simp [CreateUpdateRecordParams.record]⟩
  | promoted _ _ hn => exact .of_affected hexec hn (fun r hr => by simp_all [Write.guard]) rfl
  | replayed _ r hm =>
    obtain ⟨hr, hp⟩ := mem_pendingUpdates hm
    exact OutOfQueue.execute ⟨r, hr, rfl, by simp [hp]⟩ hexec

end Leads

theorem Handled.of_mem_step {g} (hf : Handled world f)
    (hpromoted : ∀ id, Promoted world.log id → OutOfQueue world.db id)
    (hg : g ∈ (Update.step ω world f).frames ++ (Update.step ω world f).spawned) :
    Handled (Update.step ω world f).shared g := by
  obtain ⟨db', n, hexec, hs, hl⟩ | ⟨_, -, rfl, -⟩ := mem_step hg
  · refine ⟨?_, ?_, ?_⟩
    · rw [hs]
      exact fun id hid => outOfQueue_of_toProtect hexec hl hf hid
    · rw [hs]
      exact fun id hid => outOfQueue_of_contends hexec hl hf hid
    · intro id hid
      obtain hid | ⟨_, _, _, rfl, hid⟩ := batchItems_of_leads hl hid
      · exact hf.others.batchItems id hid
      · rw [hs]
        obtain ⟨item, hi, rfl⟩ := mem_map.mp hid
        obtain ⟨hi, hd⟩ := mem_filter.mp hi
        obtain ⟨r, hr, rfl⟩ := mem_map.mp hi
        -- the ids of a new batch are new
        have hn : ¬ OutOfQueue world.db r.id := by
          rintro ⟨r', hr', hid, -⟩
          have hv := db'.history.valid
          rw [Db.rows_of_execute hexec] at hv
          exact (pairwise_append.mp hv).2.2 r' hr' r hr (.inl hid)
        refine ⟨⟨r, ?_, rfl, ?_⟩, fun ⟨byLoop, hm⟩ => hn (hpromoted r.id ⟨byLoop, ?_⟩)⟩
        · rw [Db.rows_of_execute hexec]
          exact mem_append_right _ hr
        · rw [beq_iff_eq.mp hd]
          decide
        · simpa [Frame.next] using hm
  · exact ⟨by rintro id ⟨⟩, by rintro id ⟨⟩, by rintro id ⟨⟩⟩

/-- The rows that frames work on and that the log speaks of have left the
queue. -/
structure Tracked (c : State) : Prop where
  handled : ∀ f ∈ c.frames, Handled c.shared f
  promoted : ∀ id, Promoted c.shared.log id → OutOfQueue c.shared.db id
  started : ∀ id, .protectionStarted id ∈ c.shared.log → OutOfQueue c.shared.db id

theorem tracked_initial : Tracked initial :=
  ⟨by rintro f ⟨⟩, by rintro id ⟨_, ⟨⟩⟩, by rintro id ⟨⟩⟩

theorem tracked_move (hc : Tracked c) (m : Move Operation Choice) :
    Tracked (pipeline.move c m) := by
  refine ⟨?_, ?_, ?_⟩
  · refine @Program.frames_invariant _ _ _ _ pipeline (fun c _ => Tracked c) Handled ?_ ?_ ?_ c m
      hc.handled hc
    · rintro world operation
      cases operation <;> exact ⟨by rintro id ⟨⟩, by rintro id ⟨⟩, by rintro id ⟨⟩⟩
    · intro c i ω f hf htop hc g hg
      exact (hf f (mem_frames_of_top htop)).of_mem_step hc.promoted hg
    · exact fun c i ω f _ _ _ g _ hg => hg.others
  · rintro id ⟨byLoop, hm⟩
    rw [log_move] at hm
    obtain hm | hm := mem_append.mp hm
    · exact (hc.promoted id ⟨byLoop, hm⟩).move m
    · obtain ⟨i, ω, f, db, n, rfl, htop, hexec, he⟩ := emits_of_mem_emitted hm
      cases he with
      | promoted _ _ hn =>
        rw [shared_move htop hexec]
        exact .of_affected hexec hn (fun r hr => by simp_all [Write.guard]) rfl
  · intro id hm
    rw [log_move] at hm
    obtain hm | hm := mem_append.mp hm
    · exact (hc.started id hm).move m
    · obtain ⟨i, ω, f, _, n, rfl, htop, _, he⟩ := emits_of_mem_emitted hm
      cases he with
      | protectionStarted =>
        exact ((hc.handled _ (mem_frames_of_top htop)).toProtect _ rfl).move _

/-! ## Counting runs -/

namespace Frame

/-- The updates that a step of the frame newly binds somebody to protect. -/
def gains (n : Nat) : Frame → List Uuid
  | promote (.forHost _) next => if n = 0 then [] else [next.id]
  | setInprogress id => if n = 0 then [] else [id]
  | dispatchItems run => run.toDispatch
  | _ => []

/-- A frame that is bound to protect an update and the run that it starts are
passed on one for one, but for the gains. -/
theorem countP_toProtect_next (ω : Choice) (db : Db) (n : Nat) (f : Frame) (id : Uuid) :
    ((f.next ω db n).frames ++ (f.next ω db n).spawned).countP (·.toProtect == some id) +
        (f.next ω db n).events.count (.protectionStarted id) ≤
      (if f.toProtect = some id then 1 else 0) + if id ∈ f.gains n then 1 else 0 := by
  by_cases hne : ∃ g ∈ (f.next ω db n).frames ++ (f.next ω db n).spawned, g.toProtect = some id
  · obtain ⟨g, hg, hid⟩ := hne
    cases leads_of_mem_next hg
    case promoted p row hn =>
      cases p with
      | forHost =>
        obtain rfl := Option.some.inj hid
        simp [Frame.next, hn, toProtect, gains]
      | handler | forReplay => cases hid
    case protectPromoted l row =>
      cases ht : ω.target <;> simp [Frame.next, ht, toProtect, Caller.updateHistoryId]
    case inProgress id' hn =>
      obtain rfl := Option.some.inj hid
      simp [Frame.next, hn, toProtect, gains, Caller.updateHistoryId]
    case protectItem run item rest hi hd =>
      obtain rfl := Option.some.inj hid
      simp [Frame.next, hi, hd, toProtect, gains, BatchRun.toDispatch, Caller.updateHistoryId]
    all_goals cases hid
  · have hz : ((f.next ω db n).frames ++ (f.next ω db n).spawned).countP
        (·.toProtect == some id) = 0 := by
      rw [countP_eq_zero]
      intro g hg
      simpa using fun h => hne ⟨g, hg, h⟩
    rw [hz]
    by_cases hs : .protectionStarted id ∈ (f.next ω db n).events
    · cases emits_of_mem_events hs with
      | protectionStarted caller =>
        have ho : ((prepareProtection caller).next ω db n).events.count
            (.protectionStarted caller.updateHistoryId) ≤ 1 := by
          simp only [Frame.next]
          split <;> simp
        simp only [toProtect, if_true]
        omega
    · rw [count_eq_zero_of_not_mem hs]
      exact zero_le _

end Frame

/-- The protection runs of an update: those started, and those that a frame is
bound to start. -/
def State.runs (c : State) (id : Uuid) : Nat :=
  c.shared.log.count (.protectionStarted id) + c.frames.countP (·.toProtect == some id)

section Runs

variable {c : State} {i : Nat} {f : Frame} (htop : c.top i = some f) (id : Uuid)

include htop

theorem runs_of_top :
    c.runs id = c.shared.log.count (.protectionStarted id) +
      (c.others i).countP (·.toProtect == some id) + if f.toProtect = some id then 1 else 0 := by
  obtain ⟨_, hi⟩ := exists_of_top htop
  rw [runs, (frames_perm hi).countP_eq, countP_cons]
  simp [add_assoc]

theorem runs_move (hexec : c.shared.db.execute (f.statement ω) = .ok (db, n)) :
    runs (pipeline.move c (.run i ω)) id =
      c.shared.log.count (.protectionStarted id) + (c.others i).countP (·.toProtect == some id) +
        (((f.next ω c.shared.db n).frames ++ (f.next ω c.shared.db n).spawned).countP
            (·.toProtect == some id) +
          (f.next ω c.shared.db n).events.count (.protectionStarted id)) := by
  rw [runs, (frames_move htop hexec).countP_eq, shared_move htop hexec, countP_append, count_append]
  omega

end Runs

/-- The count rises by the gains of the frame at most. -/
theorem runs_move_le {i} (htop : c.top i = some f)
    (hexec : c.shared.db.execute (f.statement ω) = .ok (db, n)) (id) :
    runs (pipeline.move c (.run i ω)) id ≤ c.runs id + if id ∈ f.gains n then 1 else 0 := by
  rw [runs_move htop id hexec, runs_of_top htop]
  have := countP_toProtect_next ω c.shared.db n f id
  omega

theorem runs_eq_zero_of_queued (hc : Tracked c) (hr : r ∈ c.rows) (hq : r.status = .queued) :
    c.runs r.id = 0 := by
  have ho : ¬ OutOfQueue c.shared.db r.id := fun h => h.not_queued hr rfl hq
  rw [runs, count_eq_zero_of_not_mem fun h => ho (hc.started r.id h), zero_add, countP_eq_zero]
  intro f hf ht
  exact ho ((hc.handled f hf).toProtect r.id (beq_iff_eq.mp ht))

/-! ## Replay of pending rows -/

/-- A successful protection is recorded with a status. -/
def ProtectionAnswer.telling : ProtectionAnswer → Bool
  | error => true
  | decision d => !d.attempted || !d.succeeded || d.protectionStatus.isSome

theorem ProtectionAnswer.protectionStatus_write (h : answer.telling = true) (id now r) :
    ((answer.write id now).set r).preUpdateProtectionStatus ≠ none := by
  cases answer with
  | error => simp [write, Write.set]
  | decision =>
    simp only [write]
    split
    · simp [Write.set]
    · split
      · simp_all [telling, Write.set, Option.isSome_iff_ne_none]
      · simp [Write.set]

theorem ProtectionAnswer.target_write_of_failed (h : answer.failed = true) (id now) :
    (answer.write id now).target = some .failed := by
  cases answer with
  | error => rfl
  | decision =>
    simp only [failed, Bool.and_eq_true, Bool.not_eq_eq_eq_not] at h
    simp [write, h, Write.target]

theorem ProtectionAnswer.guard_write (answer : ProtectionAnswer) (id : Uuid) (now : Time)
    (r : Row) : (answer.write id now).guard r = (r.id == id) := by
  cases answer with
  | error => rfl
  | decision =>
    simp only [write]
    repeat' split
    all_goals rfl

namespace Frame

def replays : Frame → Bool
  | loadPendingUpdateRecords _ => true
  | _ => false

def recorded : Frame → Option ProtectionAnswer
  | recordProtection _ answer => some answer
  | _ => none

end Frame

/-- A replay reads no unprotected row that `dispatch_next_queued_for_host` has
promoted and is still protecting, and successful protections are recorded with a
status. -/
def ReplaysAlone (c : State) : Move Operation Choice → Prop
  | .start _ => True
  | .run i ω => ∀ f ∈ c.top i,
      (f.replays = true → ∀ r ∈ c.shared.db.pendingUpdates ω.linkedHostIds,
        r.preUpdateProtectionStatus = none → ∀ g ∈ c.frames, r.id ∉ g.protecting) ∧
      ∀ answer ∈ f.recorded, answer.telling = true

instance (c : State) : ∀ m : Move Operation Choice, Decidable (ReplaysAlone c m)
  | .start _ => inferInstanceAs (Decidable True)
  | .run i _ => inferInstanceAs (Decidable (∀ f ∈ c.top i, _))

/-- A pending row was pending or queued before. -/
theorem Evolves.of_pending {r'} (h : Evolves c m r r') (hp : r'.status = .pending) :
    r.status = .pending ∨ r.status = .queued := by
  cases h with
  | kept => exact .inl hp
  | @set w hi hg =>
    rw [Write.set_status] at hp
    cases w <;> simp_all [Write.target, Write.guard]
    all_goals exact absurd hp (FinalStatus.toStatus_ne rfl)

/-- Only the record of a protection can clear the protection status. -/
theorem protectionStatus_of_evolves {r'} (hm : ReplaysAlone c m) (h : Evolves c m r r')
    (hn : r'.preUpdateProtectionStatus = none) : r.preUpdateProtectionStatus = none := by
  cases h with
  | kept => exact hn
  | @set w hi hg =>
    cases w
    case writePreUpdateProtectionStatus id status summary =>
      cases m with
      | start => cases hi
      | run _ ω =>
        obtain ⟨f, htop, hw⟩ := Option.bind_eq_some_iff.mp hi
        cases f <;> simp only [statement, Statement.write?] at hw
        case recordProtection caller answer =>
          have := protectionStatus_write ((hm _ htop).2 answer rfl)
            caller.updateHistoryId ω.now r
          simp_all
        case finalizePostUpdate id' => cases hh : ω.recoveryHint <;> simp [hh] at hw
        all_goals cases hw
    all_goals first
      | exact hn
      | cases hn

/-- A promoted row is protected at most once; while it is pending and its
protection is started or bound to start, no orchestrator competes for it, and the
protection is recorded or in the hands of a loop. -/
structure Single (c : State) (id : Uuid) : Prop where
  runs_le : c.runs id ≤ 1
  uncontended : ∀ r ∈ c.rows, r.id = id → r.status = .pending → 0 < c.runs id →
    ∀ g ∈ c.frames, id ∉ g.contends
  recorded : ∀ r ∈ c.rows, r.id = id → r.status = .pending → 0 < c.runs id →
    r.preUpdateProtectionStatus ≠ none ∨ ∃ g ∈ c.frames, id ∈ g.protecting

section Step

variable {c : State} {i n : Nat} {ω : Choice} {f : Frame} {db : Db} {id : Uuid}
  (hc : Tracked c) (htop : c.top i = some f)
  (hexec : c.shared.db.execute (f.statement ω) = .ok (db, n))

/-- How a frame gains a run: it promotes a queued row, takes a pending row with a
compare-and-set, or dispatches an item of a new batch. -/
theorem gains_cases (hexec : c.shared.db.execute (f.statement ω) = .ok (db, n))
    (h : id ∈ f.gains n) :
    (∃ l next, f = .promote (.forHost l) next ∧ next.id = id ∧ n ≠ 0 ∧
      ∃ r ∈ c.rows, r.id = id ∧ r.status = .queued) ∨
    (f = .setInprogress id ∧ n ≠ 0 ∧ ∃ r ∈ c.rows, r.id = id ∧ r.status = .pending) ∨
    id ∈ f.batchItems := by
  cases f
  case promote p next =>
    cases p with
    | forHost l =>
      obtain ⟨hn, rfl⟩ : n ≠ 0 ∧ id = next.id := by simpa [gains] using h
      exact .inl ⟨l, next, rfl, rfl, hn, exists_queued_of_promoted hexec hn⟩
    | handler | forReplay => cases h
  case setInprogress id' =>
    obtain ⟨hn, rfl⟩ : n ≠ 0 ∧ id = id' := by simpa [gains] using h
    obtain ⟨r, hr, hg, -⟩ := Db.exists_of_affected hexec hn
    exact .inr (.inl ⟨rfl, hn, r, hr, by simpa [Write.guard] using hg⟩)
  case dispatchItems run => exact .inr (.inr h)
  all_goals cases h

include hc htop hexec

/-- A row that is promoted after the step was promoted before it, or was queued and
this step promotes it. -/
theorem promoted_cases (h : Promoted (pipeline.move c (.run i ω)).shared.log id) :
    Promoted c.shared.log id ∨ c.runs id = 0 ∧ ∃ r ∈ c.rows, r.id = id ∧ r.status = .queued := by
  obtain ⟨byLoop, hm⟩ := h
  rw [shared_move htop hexec] at hm
  obtain hm | hm := mem_append.mp hm
  · exact .inl ⟨byLoop, hm⟩
  · obtain ⟨-, -, -, -, -, r, hr, rfl, hq⟩ := promoted_of_next hexec ⟨byLoop, hm⟩
    exact .inr ⟨runs_eq_zero_of_queued hc hr hq, r, hr, rfl, hq⟩

section Single

variable (hpromoted : Promoted (pipeline.move c (.run i ω)).shared.log id)
  (hs : Promoted c.shared.log id → Single c id)

include hpromoted hs

/-- Who gains a run of a promoted row finds the row without one. -/
theorem runs_eq_zero_of_gains (h : id ∈ f.gains n) : c.runs id = 0 := by
  obtain hpromoted | ⟨hz, -⟩ := promoted_cases hc htop hexec hpromoted
  · obtain ⟨l, _, -, -, -, r, hr, rfl, hq⟩ | ⟨rfl, -, r, hr, rfl, hp⟩ | hb :=
      gains_cases hexec h
    · exact runs_eq_zero_of_queued hc hr hq
    · by_contra hru
      exact (hs hpromoted).uncontended r hr rfl hp (pos_of_ne_zero hru) _
        (mem_frames_of_top htop) (mem_singleton.mpr rfl)
    · exact absurd hpromoted ((hc.handled f (mem_frames_of_top htop)).batchItems id hb).2
  · exact hz

theorem runs_le_move : runs (pipeline.move c (.run i ω)) id ≤ 1 := by
  have hle := runs_move_le htop hexec id
  by_cases hg : id ∈ f.gains n
  · rw [if_pos hg, runs_eq_zero_of_gains hc htop hexec hpromoted hs hg] at hle
    exact hle
  · rw [if_neg hg] at hle
    obtain h | ⟨_, -⟩ := promoted_cases hc htop hexec hpromoted
    · exact hle.trans (hs h).runs_le
    · omega

end Single

/-- Only the promotion by a loop gives a queued row a run. -/
theorem promotes_of_runs_pos (hr : r ∈ c.rows) (hq : r.status = .queued)
    (hpo : 0 < runs (pipeline.move c (.run i ω)) r.id) :
    ∃ l next, f = .promote (.forHost l) next ∧ next.id = r.id ∧ n ≠ 0 := by
  have hle := runs_move_le htop hexec r.id
  rw [runs_eq_zero_of_queued hc hr hq] at hle
  have hg : r.id ∈ f.gains n := by
    by_contra h
    rw [if_neg h] at hle
    omega
  obtain ⟨l, next, rfl, hid, hn, -⟩ | ⟨-, -, r', hr', hid, hp⟩ | hb :=
    gains_cases hexec hg
  · exact ⟨l, next, rfl, hid, hn⟩
  · rw [eq_of_id_eq hr' hr hid, hq] at hp
    cases hp
  · exact absurd hq (((hc.handled f (mem_frames_of_top htop)).batchItems _ hb).1.not_queued hr rfl)

omit hc in
/-- Who newly competes for a pending row has read it unprotected and in nobody's
hands. -/
theorem contends_cases (hm : ReplaysAlone c (.run i ω)) (hr : r ∈ c.rows)
    (hp : r.status = .pending) {g} (hl : f.Leads ω c.shared.db n g)
    (hg : r.id ∈ g.contends) : r.id ∈ f.contends ∨
      r.preUpdateProtectionStatus = none ∧ ∀ g ∈ c.frames, r.id ∉ g.protecting := by
  generalize hid : r.id = id at hg
  cases contends_of_leads hl hg with
  | before hme => exact .inl hme
  | inserted =>
    have hv := db.history.valid
    rw [Db.rows_of_execute hexec] at hv
    exact absurd (.inl hid) ((pairwise_append.mp hv).2.2 r hr _ (mem_singleton.mpr rfl))
  | promoted _ _ hn =>
    obtain ⟨r', hr', hid', hq⟩ := exists_queued_of_promoted hexec hn
    rw [eq_of_id_eq hr' hr (hid'.trans hid.symm), hp] at hq
    cases hq
  | replayed _ _ hme hu =>
    obtain rfl := eq_of_id_eq hr (mem_pendingUpdates hme).1 hid
    exact .inr ⟨hu, (hm _ htop).1 rfl r hme hu⟩

omit hc in
/-- A frame that passes its run on to nobody drops it. -/
theorem runs_eq_zero_of_dropped (hle : c.runs id ≤ 1) (hid : f.toProtect = some id)
    (hd : ((f.next ω c.shared.db n).frames ++ (f.next ω c.shared.db n).spawned).countP
        (·.toProtect == some id) +
      (f.next ω c.shared.db n).events.count (.protectionStarted id) = 0) :
    runs (pipeline.move c (.run i ω)) id = 0 := by
  rw [runs_move htop id hexec]
  rw [runs_of_top htop, if_pos hid] at hle
  omega

omit hc in
/-- A loop keeps a row in its hands until it drops the run or records it. -/
theorem protecting_step (hm : ReplaysAlone c (.run i ω)) (hle : c.runs id ≤ 1)
    (hpo : 0 < runs (pipeline.move c (.run i ω)) id) (hid : id ∈ f.protecting)
    (hr : r ∈ rows (pipeline.move c (.run i ω))) (hri : r.id = id) :
    r.preUpdateProtectionStatus ≠ none ∨
      ∃ g ∈ (pipeline.move c (.run i ω)).frames, id ∈ g.protecting := by
  have hf := frames_move htop hexec
  have hk := fun hid hd => hpo.ne' (runs_eq_zero_of_dropped htop hexec hle hid hd)
  cases f
  case loadTarget p next =>
    cases p with
    | forHost l =>
      obtain rfl := mem_singleton.mp hid
      cases ht : ω.target with
      | error => exact absurd (by simp [Frame.next, ht, Frame.toProtect]) (hk rfl)
      | ok =>
        refine .inr ⟨.prepareProtection (.promotion l next), hf.mem_iff.mpr ?_, hid⟩
        simp [Frame.next, ht]
    | handler | forReplay => cases hid
  case prepareProtection caller =>
    cases caller with
    | promotion l next =>
      obtain rfl := mem_singleton.mp hid
      cases hp : ω.protection with
      | none => exact absurd (by simp [Frame.next, hp, Frame.toProtect]) (hk rfl)
      | some answer =>
        refine .inr ⟨.recordProtection (.promotion l next) answer, hf.mem_iff.mpr ?_, hid⟩
        simp [Frame.next, hp]
    | orchestrator | batch => cases hid
  case recordProtection caller answer =>
    cases caller with
    | promotion _ next =>
      left
      obtain rfl := mem_singleton.mp hid
      rw [rows_move htop hexec] at hr
      obtain ⟨r₀, -, rfl⟩ := mem_map.mp hr
      have hg : (answer.write next.id ω.now).guard r₀ = true := by
        rw [guard_write, ← hri, Write.row_id, beq_self_eq_true]
      rw [Caller.updateHistoryId, Write.row, if_pos hg]
      exact protectionStatus_write ((hm _ htop).2 answer rfl) _ _ _
    | orchestrator | batch => cases hid
  all_goals cases hid

/-- A promoted row that is pending and protected after the step was so before, or
is promoted by a loop in this step. -/
theorem pending_cases (hpromoted : Promoted (pipeline.move c (.run i ω)).shared.log id) {r'}
    (hr' : r' ∈ rows (pipeline.move c (.run i ω))) (hid : r'.id = id)
    (hp : r'.status = .pending) (hpo : 0 < runs (pipeline.move c (.run i ω)) id) :
    (∃ l next, f = .promote (.forHost l) next ∧ next.id = id ∧ n ≠ 0 ∧
      ∃ r ∈ c.rows, r.id = id ∧ r.status = .queued) ∨
    Promoted c.shared.log id ∧ 0 < c.runs id ∧
      ∃ r ∈ c.rows, r.id = id ∧ r.status = .pending ∧ Evolves c (.run i ω) r r' := by
  obtain hpromoted | ⟨-, r, hr, rfl, hq⟩ := promoted_cases hc htop hexec hpromoted
  · right
    obtain ⟨r, hr, hri, ho⟩ := hc.promoted id hpromoted
    have he := evolves_of_id_eq hr hr' (hid.trans hri.symm)
    refine ⟨hpromoted, ?_, r, hr, hri, (he.of_pending hp).resolve_right ho, he⟩
    -- otherwise the step gains the run, and none of the ways to do so leaves the row pending
    by_contra hz
    have hg : id ∈ f.gains n := by
      by_contra h
      have hle := runs_move_le htop hexec id
      rw [if_neg h] at hle
      omega
    obtain ⟨-, -, -, -, -, r₁, hr₁, hid₁, hq⟩ | ⟨rfl, hn, -⟩ | hb :=
      gains_cases hexec hg
    · exact ho (eq_of_id_eq hr hr₁ (hri.trans hid₁.symm) ▸ hq)
    · obtain ⟨r₁, -, _, hs⟩ := Db.exists_of_affected hexec hn
      rw [rows, shared_move htop hexec] at hr'
      have hid₁ : r₁.id = id := by simp_all [Write.guard]
      rw [eq_of_id_eq hr' hs (hid.trans (hid₁.symm.trans (Write.set_id _ _).symm))] at hp
      cases hp
    · exact ((hc.handled f (mem_frames_of_top htop)).batchItems id hb).2 hpromoted
  · obtain ⟨l, next, rfl, hid, hn⟩ := promotes_of_runs_pos hc htop hexec hr hq hpo
    exact .inl ⟨l, next, rfl, hid, hn, r, hr, rfl, hq⟩

theorem single_step (hm : ReplaysAlone c (.run i ω))
    (hpromoted : Promoted (pipeline.move c (.run i ω)).shared.log id)
    (hs : Promoted c.shared.log id → Single c id) : Single (pipeline.move c (.run i ω)) id := by
  have hfr := frames_move htop hexec
  obtain ⟨_, hi⟩ := exists_of_top htop
  have ho : ∀ g ∈ c.others i, g ∈ c.frames := fun g hg =>
    (frames_perm hi).mem_iff.mpr (mem_cons_of_mem _ hg)
  refine ⟨runs_le_move hc htop hexec hpromoted hs, ?_, ?_⟩
  · intro r' hr' hid hp hpos g hg hco
    obtain ⟨l, next, rfl, rfl, hn, r, hr, hri, hq⟩ |
      ⟨hpromoted, hpos, r, hr, rfl, hp, -⟩ :=
      pending_cases hc htop hexec hpromoted hr' hid hp hpos
    · rw [hfr.mem_iff] at hg
      obtain rfl | hg : g = .loadTarget (.forHost l) next ∨ g ∈ c.others i := by
        simpa [Frame.next, hn] using hg
      · simp [Frame.contends, Promotion.byLoop] at hco
      · exact ((hc.handled g (ho g hg)).contends _ hco).not_queued hr hri hq
    · have hno := (hs hpromoted).uncontended r hr rfl hp hpos
      rw [hfr.mem_iff, mem_append] at hg
      obtain hg | hg := hg
      · obtain hf | ⟨hu, hfre⟩ := contends_cases htop hexec hm hr hp
          (Frame.leads_of_mem_next hg) hco
        · exact hno f (mem_frames_of_top htop) hf
        · obtain hre | ⟨g, hg, hpr⟩ :=
            (hs hpromoted).recorded r hr rfl hp hpos
          · exact hre hu
          · exact hfre g hg hpr
      · exact hno g (ho g hg) hco
  · intro r' hr' hid hp hpos
    obtain ⟨l, next, rfl, rfl, hn, -⟩ | ⟨hpromoted, hpo, r, hr, rfl, hpe, he⟩ :=
      pending_cases hc htop hexec hpromoted hr' hid hp hpos
    · refine .inr ⟨.loadTarget (.forHost l) next, hfr.mem_iff.mpr ?_, mem_singleton.mpr rfl⟩
      simp [Frame.next, hn]
    · by_cases hno : r'.preUpdateProtectionStatus = none
      · obtain hre | ⟨g, hg, hpr⟩ :=
          (hs hpromoted).recorded r hr rfl hpe hpo
        · exact absurd (protectionStatus_of_evolves hm he hno) hre
        · rw [(frames_perm hi).mem_iff, mem_cons] at hg
          obtain rfl | hg := hg
          · exact protecting_step htop hexec hm (hs hpromoted).runs_le hpos hpr hr' hid
          · exact .inr ⟨g, hfr.mem_iff.mpr (mem_append_right _ hg), hpr⟩
      · exact .inl hno

end Step

/-- Steps of a loop that protects a row are never refused. -/
theorem protecting_eq_nil_of_refused (h : db.execute (f.statement ω) = .error v) :
    f.protecting = [] := by
  cases f
  case loadTarget p next => cases h
  case prepareProtection caller => cases h
  case recordProtection caller answer =>
    obtain ⟨r, -, hw, -⟩ := Db.of_write_error h
    have ht := congrArg Write.target hw
    cases hf : answer.failed with
    | true =>
      rw [target_write_of_failed hf] at ht
      cases ht
    | false =>
      rw [target_write hf] at ht
      cases ht
  all_goals rfl

/-- A step that starts no run and that works on no row. -/
theorem Single.of_idle {c' : State} (hs : Single c id) (hro : c'.rows = c.rows)
    (hru : c'.runs id ≤ c.runs id) (hco : ∀ g ∈ c'.frames, id ∈ g.contends → g ∈ c.frames)
    (hpr : ∀ g ∈ c.frames, id ∈ g.protecting → g ∈ c'.frames) : Single c' id := by
  refine ⟨hru.trans hs.runs_le, ?_, ?_⟩ <;> rw [hro] <;> intro r hr hid hpe hpo
  · intro g hg hc
    exact hs.uncontended r hr hid hpe (hpo.trans_le hru) g (hco g hg hc) hc
  · obtain h | ⟨g, hg, hp⟩ := hs.recorded r hr hid hpe (hpo.trans_le hru)
    · exact .inl h
    · exact .inr ⟨g, hpr g hg hp, hp⟩

theorem single_refused {i} (htop : c.top i = some f)
    (he : c.shared.db.execute (f.statement ω) = .error v) (hs : Single c id) :
    Single (pipeline.move c (.run i ω)) id := by
  obtain ⟨hsh, hf⟩ := refused_move htop he
  obtain ⟨_, hi⟩ := exists_of_top htop
  have hr : ∀ g ∈ f.refused, g.toProtect = none ∧ g.contends = [] := by
    intro g hg
    cases f <;> simp only [refused, mem_singleton, not_mem_nil] at hg
    subst hg
    exact ⟨rfl, rfl⟩
  refine hs.of_idle (by rw [rows, hsh, rows]) ?_ ?_ ?_
  · have hz : f.refused.countP (·.toProtect == some id) = 0 := by
      rw [countP_eq_zero]
      intro g hg
      simp [(hr g hg).1]
    rw [runs, hsh, hf.countP_eq, countP_append, runs_of_top htop]
    omega
  · intro g hg hc
    rw [hf.mem_iff, mem_append] at hg
    obtain hg | hg := hg
    · simp [(hr g hg).2] at hc
    · exact (frames_perm hi).mem_iff.mpr (mem_cons_of_mem _ hg)
  · intro g hg hp
    rw [(frames_perm hi).mem_iff, mem_cons] at hg
    obtain rfl | hg := hg
    · simp [protecting_eq_nil_of_refused he] at hp
    · exact hf.mem_iff.mpr (mem_append_right _ hg)

theorem single_start (operation) (hs : Single c id) :
    Single (pipeline.move c (.start operation)) id := by
  have hf := Program.move_start_frames (P := pipeline) c operation
  have he : operation.enter.toProtect = none ∧ operation.enter.contends = [] := by
    cases operation <;> exact ⟨rfl, rfl⟩
  refine hs.of_idle rfl ?_ ?_ fun g hg _ => hf ▸ mem_append_left _ hg
  · rw [runs, hf]
    simp [show pipeline.enter operation = operation.enter from rfl, he.1, runs]
  · intro g hg hc
    rw [hf, mem_append, mem_singleton] at hg
    obtain hg | rfl := hg
    · exact hg
    · rw [show pipeline.enter operation = operation.enter from rfl, he.2] at hc
      cases hc

/-- Every promoted row is protected at most once. -/
structure ProtectsOnce (c : State) : Prop where
  tracked : Tracked c
  single : ∀ id, Promoted c.shared.log id → Single c id

theorem protectsOnce_move (c m) (hc : ProtectsOnce c) (hm : ReplaysAlone c m) :
    ProtectsOnce (pipeline.move c m) := by
  refine ⟨tracked_move hc.tracked m, fun id hpromoted => ?_⟩
  cases m with
  | start operation => exact single_start operation (hc.single id hpromoted)
  | run i ω =>
    cases htop : c.top i with
    | none =>
      rw [Program.move_run_of_top_none htop] at hpromoted ⊢
      exact hc.single id hpromoted
    | some f =>
      cases hexec : c.shared.db.execute (f.statement ω) with
      | ok => exact single_step hc.tracked htop hexec hm hpromoted (hc.single id)
      | error =>
        refine single_refused htop hexec (hc.single id ?_)
        simpa only [log_move, emitted, htop, hexec, append_nil] using hpromoted

/-! ## The log -/

/-- The protection runs of an update between its promotion and its first claim. -/
def runsBeforeClaim (log : List Event) (id : Uuid) : Nat :=
  ((log.dropWhile fun e => e != .promoted id true && e != .promoted id false).takeWhile
    (· != .claimed id)).count (.protectionStarted id)

theorem runsBeforeClaim_le (log id) : runsBeforeClaim log id ≤ log.count (.protectionStarted id) :=
  ((takeWhile_sublist _).trans (dropWhile_sublist _)).count_le _

theorem promoted_of_runsBeforeClaim {log} (h : 0 < runsBeforeClaim log id) : Promoted log id := by
  by_contra hn
  have hem : (log.dropWhile fun e => e != .promoted id true && e != .promoted id false) = [] := by
    rw [dropWhile_eq_nil_iff]
    intro e he
    simp only [Bool.and_eq_true, bne_iff_ne]
    exact ⟨fun h => hn ⟨true, h ▸ he⟩, fun h => hn ⟨false, h ▸ he⟩⟩
  simp [runsBeforeClaim, hem] at h

/-- In every run in which no replay reads an unprotected row that
`dispatch_next_queued_for_host` promoted and is still protecting, and successful
protections are recorded with a status, at most one protection run is started for
any update between its promotion and its first claim. -/
theorem protected_at_most_once (moves : List (Move Operation Choice))
    (hm : pipeline.Meets ReplaysAlone initial moves) (id : Uuid) :
    runsBeforeClaim (pipeline.run initial moves).shared.log id ≤ 1 := by
  have hi : ProtectsOnce initial := ⟨tracked_initial, by rintro id ⟨_, ⟨⟩⟩⟩
  have ho := Program.run_invariant (P := pipeline) protectsOnce_move hi hm
  by_contra hma
  have hs := ho.single id (promoted_of_runsBeforeClaim (by omega))
  have hle := runsBeforeClaim_le (pipeline.run initial moves).shared.log id
  have hr := hs.runs_le
  rw [runs] at hr
  omega

/-- A batch of two updates of host 7: the protection of the first fails, the loop
promotes the second, with id 2, and starts its protection. -/
def promotedInBatch : List (Move Operation Choice) :=
  .start (.createBatch 0 [⟨7, 1, 1, "1", "2"⟩, ⟨7, 2, 2, "1", "2"⟩]) ::
    steps 0 11 { newId := (· + 1), protection := some .error } ++
    steps 0 1 { protection := some (.decision ⟨true, true, some "ok", none⟩) }

/-- The agent of host 7 reconnects and its pending rows are replayed. -/
def replayed : List (Move Operation Choice) :=
  .start (.reconnect 9 none .replayPrepared) :: steps 1 5 { linkedHostIds := [7] }

/-- The replay after the protection has ended does not start another one. -/
theorem protected_once_promotedInBatch :
    runsBeforeClaim (pipeline.run initial (promotedInBatch ++ steps 0 1 {} ++ replayed)).shared.log
        2 = 1 ∧
      runsBeforeClaim
        (pipeline.run initial (promotedInBatch ++ steps 0 1 {} ++ replayed)).shared.log 2 ≤ 1 :=
  ⟨by decide, protected_at_most_once _ (by decide) 2⟩

/-- The replay during the protection hands the row to an orchestrator, which starts
a second protection. -/
theorem replayDuringProtection_protects_twice :
    runsBeforeClaim (pipeline.run initial (promotedInBatch ++ replayed ++
      steps 2 3 { protection := some .error })).shared.log 2 = 2 := by decide

/-! ## Promotions -/

def Event.promotedId : Event → Option Uuid
  | .promoted id _ => some id
  | _ => none

/-- No update is promoted twice. -/
def PromotesOnce (c : State) : Prop :=
  Tracked c ∧ (c.shared.log.filterMap Event.promotedId).Nodup

theorem promotesOnce_move (c : State) (m : Move Operation Choice) (hc : PromotesOnce c) :
    PromotesOnce (pipeline.move c m) := by
  refine ⟨tracked_move hc.1 m, ?_⟩
  rw [log_move, filterMap_append]
  by_cases hno : (c.emitted m).filterMap Event.promotedId = []
  · rw [hno, append_nil]
    exact hc.2
  · obtain ⟨id, hid⟩ := exists_mem_of_ne_nil _ hno
    obtain ⟨e, he, hid⟩ := mem_filterMap.mp hid
    obtain ⟨i, ω, f, db, n, rfl, htop, hexec, hemi⟩ := emits_of_mem_emitted he
    cases hemi <;> cases hid
    next p next hn =>
      have hem : c.emitted (.run i ω) = [.promoted next.id p.byLoop] := by
        simp [State.emitted, htop, hexec, Frame.next, hn]
      rw [hem]
      refine hc.2.append (nodup_singleton _) (disjoint_singleton.mpr fun hm => ?_)
      -- A row that was promoted before is not queued any more.
      obtain ⟨r, hr, hid, hq⟩ := exists_queued_of_promoted hexec hn
      obtain ⟨e, he, hpromoted⟩ := mem_filterMap.mp hm
      cases e <;> cases hpromoted
      exact (hc.1.promoted _ ⟨_, he⟩).not_queued hr hid hq

/-- In every run, no update is promoted twice, and what is promoted or protected has left the queue
for good. -/
theorem promoted_at_most_once (moves : List (Move Operation Choice)) :
    let c := pipeline.run initial moves
    (c.shared.log.filterMap Event.promotedId).Nodup ∧
      ∀ id, Promoted c.shared.log id ∨ .protectionStarted id ∈ c.shared.log →
        OutOfQueue c.shared.db id := by
  have ho : PromotesOnce (pipeline.run initial moves) :=
    foldlRecOn moves _ ⟨tracked_initial, nodup_nil⟩ fun c hc m _ => promotesOnce_move c m hc
  exact ⟨ho.2, fun id => Or.rec (ho.1.promoted id) (ho.1.started id)⟩

end Uptrakit.Update
