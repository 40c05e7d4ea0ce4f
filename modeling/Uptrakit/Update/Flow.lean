import Uptrakit.Update.Step

/-!
# Control flow of the pipeline

`Frame.Leads` lists the frames that a frame can continue with or spawn, each with
the condition under which it does, and `Frame.Emits` the events.  They are the
inversion of `Frame.next` (`leads_of_mem_next`, `emits_of_mem_events`):
properties of the frames in flight and of the log are proved by cases on them,
and only the cases that matter to a property need an argument.
-/

namespace Uptrakit.Update

open Concurrent List Option

namespace Frame

variable (ω : Choice) (db : Db) (n : Nat) in
/-- When its statement affects `n` rows of `db`, the first frame continues with or
spawns the second. -/
inductive Leads : Frame → Frame → Prop
  -- `trigger_update_for_host`
  | valid (params target) : Leads (validateUpdatePreconditions params)
        (hasActiveUpdateForHostSoftwareItem (buildRecord params target))
  | itemFree (params) :
      Leads (hasActiveUpdateForHostSoftwareItem params) (hasActiveUpdateForHost params)
  | hostBusy (params) : Leads (hasActiveUpdateForHost params) (insertQueued params)
  | hostFree (params) : Leads (hasActiveUpdateForHost params) (insertPending params)
  | orchestrate (params) : Leads (insertPending params) (checkConnected (ω.newId 0))
  -- `create_batch`
  | validated (tenantId candidates) : Leads (validateCandidates tenantId candidates)
        (checkHosts tenantId (candidates.filter ω.eligible) [] (candidates.filter ω.eligible))
  | hostChecked (tenantId validated busy c rest) :
      Leads (checkHosts tenantId validated busy (c :: rest))
        (checkHosts tenantId validated (checkHost db busy c) rest)
  | hostsChecked (tenantId validated busy) :
      Leads (checkHosts tenantId validated busy []) (insertBatch tenantId validated busy)
  | batchInserted (tenantId validated busy) : Leads (insertBatch tenantId validated busy)
        (dispatchItems (batchRun ω.batchId tenantId (batchRows ω tenantId validated busy)))
  | protectItem (run : BatchRun) (item rest) (items : run.items = item :: rest)
      (dispatch : item.shouldDispatch = true) :
      Leads (dispatchItems run) (prepareProtection (.batch item { run with items := rest }))
  | skipItem (run : BatchRun) (item rest) (items : run.items = item :: rest) :
      Leads (dispatchItems run) (dispatchItems { run with items := rest })
  -- promotion
  | batchService (serviceId batchId hostId tenantId) :
      Leads (findServiceForBatch serviceId batchId hostId)
        (findQueued (.forHost ⟨hostId, tenantId, some batchId, none⟩))
  | queueService (serviceId hostId tenantId) :
      Leads (findServiceForQueue serviceId hostId) (findQueued (.handler tenantId hostId))
  | found (p : Promotion) (next) (queued : db.nextQueued p.hostId = some next) :
      Leads (findQueued p) (promote p next)
  | queueEmptyComplete (l batchId) :
      Leads (findQueued (.forHost l)) (maybeCompleteBatch batchId l.tenantId)
  | queueEmptyResume (l : Loop) (run) (resume : l.resume = some run) :
      Leads (findQueued (.forHost l)) (dispatchItems run)
  | missed (p next) : Leads (promote p next) (findQueued p)
  | promoted (p next) (affected : n ≠ 0) : Leads (promote p next) (loadTarget p next)
  | targetMissing (p next e) : Leads (loadTarget p next) (failDispatch p next e)
  | protectPromoted (l next) :
      Leads (loadTarget (.forHost l) next) (prepareProtection (.promotion l next))
  | handOver (p : Promotion) (next) (handler : p.byLoop = false) :
      Leads (loadTarget p next) (checkConnected next.id)
  | failedComplete (l next e batchId) :
      Leads (failDispatch (.forHost l) next e) (maybeCompleteBatch batchId next.tenantId)
  | failedRetry (l next e) : Leads (failDispatch (.forHost l) next e) (findQueued (.forHost l))
  -- protection and dispatch
  | unprotected (caller) : Leads (prepareProtection caller) (dispatchUpdateToAgent caller)
  | protection (caller answer) : Leads (prepareProtection caller) (recordProtection caller answer)
  | protectionDone (caller) (answer : ProtectionAnswer) (ok : answer.failed = false) :
      Leads (recordProtection caller answer) (dispatchUpdateToAgent caller)
  | unprotectedComplete (l next answer batchId) :
      Leads (recordProtection (.promotion l next) answer) (maybeCompleteBatch batchId next.tenantId)
  | unprotectedRetry (l next answer) :
      Leads (recordProtection (.promotion l next) answer) (findQueued (.forHost l))
  | unprotectedOrchestrator (id answer) :
      Leads (recordProtection (.orchestrator id) answer) (consolidateOutput id)
  | unprotectedItem (item rest answer) : Leads (recordProtection (.batch item rest) answer)
        (findQueued (.forHost ⟨item.hostId, rest.tenantId, some rest.batchId, some rest⟩))
  | dispatchedComplete (l next batchId) : Leads (dispatchUpdateToAgent (.promotion l next))
        (maybeCompleteBatch batchId l.tenantId)
  | dispatchedResume (l : Loop) (next run) (resume : l.resume = some run) :
      Leads (dispatchUpdateToAgent (.promotion l next)) (dispatchItems run)
  | dispatchFailed (l next e) :
      Leads (dispatchUpdateToAgent (.promotion l next)) (failDispatch (.forHost l) next e)
  | dispatchedItem (item rest) :
      Leads (dispatchUpdateToAgent (.batch item rest)) (dispatchItems rest)
  | dispatchFailedOrchestrator (id) :
      Leads (dispatchUpdateToAgent (.orchestrator id)) (failBeforeAgentDispatch id)
  -- the orchestrator
  | agentConnected (id) : Leads (checkConnected id) (setInprogress id)
  | inProgress (id) (affected : n ≠ 0) :
      Leads (setInprogress id) (prepareProtection (.orchestrator id))
  | orchestratorFailed (id) : Leads (failBeforeAgentDispatch id) (consolidateOutput id)
  -- messages of an agent
  | claimable (id serviceId runtimeInstanceId interactive) :
      Leads (readForClaim id serviceId runtimeInstanceId interactive)
        (claimPending id serviceId runtimeInstanceId interactive)
  | claimableOrchestrated (id serviceId runtimeInstanceId interactive) :
      Leads (readForClaim id serviceId runtimeInstanceId interactive)
        (claimInProgress id serviceId runtimeInstanceId interactive)
  | resumableResult (id args resumable record) (read : db.find id = some record) :
      Leads (readForResult id args resumable)
        (transitionToAwaitingRestart record { args with output := ω.output } ω.truncated)
  | result (id args resumable record) (read : db.find id = some record) :
      Leads (readForResult id args resumable)
        (finalizeUpdateResult record { args with output := ω.output } ω.truncated)
  | notResumed (record args truncated) : Leads (transitionToAwaitingRestart record args truncated)
        (finalizeUpdateResult record args truncated)
  | notOwned (record args truncated) : Leads (finalizeUpdateResult record args truncated)
        (failPendingUnowned record args truncated)
  | finalizedHint (record args truncated) :
      Leads (finalizeUpdateResult record args truncated) (finalizePostUpdate record.id)
  | finalizedTruncated (record args truncated) :
      Leads (finalizeUpdateResult record args truncated) (markOutputTruncated record.id)
  | finalizedBatch (record args truncated batchId) :
      Leads (finalizeUpdateResult record args truncated)
        (findServiceForBatch args.serviceId batchId record.hostId)
  | finalizedQueue (record args truncated) : Leads (finalizeUpdateResult record args truncated)
        (findServiceForQueue args.serviceId record.hostId)
  | failedUnownedHint (record args truncated) :
      Leads (failPendingUnowned record args truncated) (finalizePostUpdate record.id)
  | failedUnownedTruncated (record args truncated) :
      Leads (failPendingUnowned record args truncated) (markOutputTruncated record.id)
  | failedUnownedBatch (record args truncated batchId) :
      Leads (failPendingUnowned record args truncated)
        (findServiceForBatch args.serviceId batchId record.hostId)
  | failedUnownedQueue (record args truncated) : Leads (failPendingUnowned record args truncated)
        (findServiceForQueue args.serviceId record.hostId)
  | batchItem (id args rest record) (read : db.find id = some record) :
      Leads (batchResult ((id, args) :: rest)) (finalizeBatchItem record args)
  | batchItems (item rest) : Leads (batchResult (item :: rest)) (batchResult rest)
  | batchItemFinalized (record args) :
      Leads (finalizeBatchItem record args) (finalizePostUpdate record.id)
  -- reconnect
  | candidates (serviceId runtimeInstanceId mode) :
      Leads (loadOwnedReconnectCandidates serviceId runtimeInstanceId mode)
        (markOwnedInterrupted serviceId runtimeInstanceId mode
          (db.history.rows.filter (orphanedCondition serviceId runtimeInstanceId)))
  | interrupted (serviceId runtimeInstanceId mode candidates) :
      Leads (markOwnedInterrupted serviceId runtimeInstanceId mode candidates)
        (markOrchestratorFailed serviceId mode
          (db.matched (.markOwnedInProgressAsInterruptedOnReconnect (candidates.map (·.id))
            serviceId runtimeInstanceId ω.now) candidates))
  | interruptedHint (serviceId mode interrupted) (record : Row) :
      Leads (markOrchestratorFailed serviceId mode interrupted) (finalizePostUpdate record.id)
  | interruptedBatch (serviceId mode interrupted) (record : Row) (batchId) :
      Leads (markOrchestratorFailed serviceId mode interrupted)
        (findServiceForBatch serviceId batchId record.hostId)
  | interruptedQueue (serviceId mode interrupted) (record : Row) :
      Leads (markOrchestratorFailed serviceId mode interrupted)
        (findServiceForQueue serviceId record.hostId)
  | interruptedReplay (serviceId mode interrupted) (record : Row) :
      Leads (markOrchestratorFailed serviceId mode interrupted)
        (findQueued (.forReplay record.hostId))
  | startReplay (serviceId mode interrupted) :
      Leads (markOrchestratorFailed serviceId mode interrupted) (loadPendingUpdateRecords serviceId)
  | pendingLoaded (serviceId) : Leads (loadPendingUpdateRecords serviceId)
        (preparePendingRecords { serviceId := serviceId } (db.pendingUpdates ω.linkedHostIds))
  | replayOrchestrate (replay) (record : Row) (rest)
      (unprotected : record.preUpdateProtectionStatus = none) :
      Leads (preparePendingRecords replay (record :: rest)) (checkConnected record.id)
  | replayNext (replay replay' record rest) : Leads (preparePendingRecords replay (record :: rest))
        (preparePendingRecords replay' rest)
  | unreplayable (replay replay' record rest) :
      Leads (preparePendingRecords replay (record :: rest)) (failUnreplayable replay' record rest)
  | replayAgain (replay) :
      Leads (preparePendingRecords replay []) (loadPendingUpdateRecords replay.serviceId)
  | replayRest (replay replay' record rest) :
      Leads (failUnreplayable replay record rest) (preparePendingRecords replay' rest)
  | unreplayableHint (replay record rest) :
      Leads (failUnreplayable replay record rest) (finalizePostUpdate record.id)
  | unreplayableBatch (replay record rest batchId) : Leads (failUnreplayable replay record rest)
        (findServiceForBatch replay.serviceId batchId record.hostId)
  | unreplayableQueue (replay record rest) :
      Leads (failUnreplayable replay record rest) (findQueued (.forReplay record.hostId))
  -- the reaper
  | nothingOverdue : Leads selectOverdue (listStalledPending ω.now [])
  | overdue : Leads selectOverdue (reapOverdue ω.now (db.overdueUpdates ω.now))
  | reaped (now overdue) : Leads (reapOverdue now overdue) (listStalledPending now overdue)
  | nothingStalled (now reaped) : Leads (listStalledPending now reaped) (publishReaped reaped [])
  | stalled (now reaped) : Leads (listStalledPending now reaped)
        (selectStalledPending now reaped ((db.stalledUpdates now ω.reapable).map (·.id)))
  | nothingPending (now reaped ids) :
      Leads (selectStalledPending now reaped ids) (publishReaped reaped [])
  | stillPending (now reaped ids) : Leads (selectStalledPending now reaped ids)
        (reapStalledPending now reaped (db.pendingAmong ids))
  | pendingReaped (now reaped candidates) :
      Leads (reapStalledPending now reaped candidates) (publishReaped reaped candidates)
  | advance (reaped pendingReaped) (row : Row) (serviceId batchId) :
      Leads (publishReaped reaped pendingReaped) (findServiceForBatch serviceId batchId row.hostId)
  | advancePending (reaped pendingReaped) (row : Row) (batchId) :
      Leads (publishReaped reaped pendingReaped)
        (findQueued (.forHost ⟨row.hostId, row.tenantId, some batchId, none⟩))
  -- the rollout cleanup
  | rollout : Leads selectInProgress
      (markRollout (db.history.rows.filter (·.status == .inProgress)))
  | rolloutHint (candidates) (record : Row) :
      Leads (markRollout candidates) (finalizePostUpdate record.id)
  | rolloutPromote (candidates) (record : Row) : Leads (markRollout candidates)
        (findQueued (.forHost ⟨record.hostId, record.tenantId, record.batchId, none⟩))

variable {ω : Choice} {db : Db} {n : Nat} {g : Frame}

theorem leads_of_mem_next {f : Frame} (hg : g ∈ (f.next ω db n).frames ++ (f.next ω db n).spawned) :
    Leads ω db n f g := by
  cases f
  case markOrchestratorFailed serviceId mode interrupted =>
    simp only [next, mem_append, mem_flatMap, mem_cons, not_mem_nil, or_false] at hg
    obtain ⟨record, -, rfl | rfl⟩ | hg := hg
    · exact .interruptedHint _ _ _ record
    · unfold notifyFailedReconnectUpdate successor
      repeat' split
      · exact .interruptedReplay _ _ _ record
      · exact .interruptedBatch _ _ _ record _
      · exact .interruptedQueue _ _ _ record
    · cases mode with
      | immediate => simp at hg
      | replayPrepared =>
        obtain rfl : g = loadPendingUpdateRecords serviceId := by simpa using hg
        exact .startReplay _ _ _
  case publishReaped reaped pendingReaped =>
    simp only [next, append_nil, mem_append, mem_flatMap] at hg
    obtain ⟨row, -, hg⟩ | ⟨row, -, hg⟩ := hg
    · unfold advanceReaped at hg
      split at hg
      · obtain rfl := mem_singleton.mp hg
        exact .advance _ _ row _ _
      · cases hg
    · unfold advancePendingReaped at hg
      split at hg
      · obtain rfl := mem_singleton.mp hg
        exact .advancePending _ _ row _
      · cases hg
  case markRollout candidates =>
    simp only [next, append_nil, mem_flatMap, mem_cons, not_mem_nil, or_false] at hg
    obtain ⟨record, -, rfl | rfl⟩ := hg
    · exact .rolloutHint _ record
    · exact .rolloutPromote _ record
  -- the other frames list the frames that they continue with
  all_goals
    revert g
    simp only [next, done, retry, afterResult, afterEmptyQueue, afterMiss, afterPromotion,
      afterTarget, afterFailDispatch, afterFailedProtection, afterDispatch, prepareMessage,
      prepareSinglePendingRecord, notifyFailedReconnectUpdate, successor]
    repeat' split
    all_goals
      simp only [append_nil, forall_mem_append, forall_mem_cons, not_mem_nil,
        false_implies, mem_toList, map_eq_some_iff, forall_exists_index,
        and_imp, forall_apply_eq_imp_iff₂]
      and_intros
    all_goals
      intros
      try constructor <;> first | assumption | rfl | exact eq_false_of_ne_true ‹_›
  -- without a batch, `notify_failed_reconnect_update` does not ask for a service
  exact (‹_ = _ → _ = none → False› rfl ‹_›).elim

/-- The frame emits the event when its statement affects `n` rows. -/
inductive Emits (n : Nat) : Frame → Event → Prop
  | promoted (p next) (affected : n ≠ 0) : Emits n (promote p next) (.promoted next.id p.byLoop)
  | protectionStarted (caller) :
      Emits n (prepareProtection caller) (.protectionStarted caller.updateHistoryId)
  | claimedPending (id serviceId runtimeInstanceId interactive) (affected : n ≠ 0) :
      Emits n (claimPending id serviceId runtimeInstanceId interactive) (.claimed id)
  | claimedInProgress (id serviceId runtimeInstanceId interactive) (affected : n ≠ 0) :
      Emits n (claimInProgress id serviceId runtimeInstanceId interactive) (.claimed id)
  | overdueReaped (now overdue) :
      Emits n (reapOverdue now overdue) (.overdueReaped (overdue.map (·.id)))
  | pendingReaped (now reaped candidates) :
      Emits n (reapStalledPending now reaped candidates) (.pendingReaped (candidates.map (·.id)))
  | interruptedPublished (reaped pendingReaped row) (mem : row ∈ reaped ++ pendingReaped) :
      Emits n (publishReaped reaped pendingReaped) (.interruptedPublished row.id)

theorem emits_of_mem_events {f : Frame} {e} (he : e ∈ (f.next ω db n).events) : Emits n f e := by
  cases f
  case publishReaped reaped pendingReaped =>
    obtain ⟨row, hr, rfl⟩ := mem_map.mp he
    exact .interruptedPublished reaped pendingReaped row hr
  -- each of the remaining frames emits one event at most
  all_goals
    simp only [next, afterTarget, prepareSinglePendingRecord] at he
    repeat' split at he
    all_goals simp only [mem_singleton, not_mem_nil] at he
    all_goals
      subst he
      constructor <;> assumption

end Frame

/-- A move that emits an event is a step of a frame that emits it. -/
theorem emits_of_mem_emitted {c : State} {m e} (he : e ∈ c.emitted m) :
    ∃ i ω f db n, m = .run i ω ∧ c.top i = some f ∧
      c.shared.db.execute (f.statement ω) = .ok (db, n) ∧ f.Emits n e := by
  unfold State.emitted at he
  split at he
  · cases he
  · rename_i i ω
    split at he
    · cases he
    · rename_i f ht
      split at he
      · rename_i db n hex
        exact ⟨i, ω, f, db, n, rfl, ht, hex, Frame.emits_of_mem_events he⟩
      · cases he

/-- Where the frames in flight after a step come from. -/
theorem mem_step {ω world f g} (hg : g ∈ (step ω world f).frames ++ (step ω world f).spawned) :
    (∃ db n, world.db.execute (f.statement ω) = .ok (db, n) ∧
      (step ω world f).shared = { db := db, log := world.log ++ (f.next ω world.db n).events } ∧
      Frame.Leads ω world.db n f g) ∨
    ∃ params, f = .insertPending params ∧ g = .insertQueued params ∧
      (step ω world f).shared = world := by
  obtain ⟨db, n, he, hs⟩ | ⟨v, -, hs⟩ := step_cases ω world f
  · rw [hs] at hg ⊢
    exact .inl ⟨db, n, he, rfl, Frame.leads_of_mem_next hg⟩
  · rw [hs] at hg ⊢
    refine .inr ?_
    cases f
    case insertPending params =>
      obtain rfl : g = .insertQueued params := by simpa [Frame.refused] using hg
      exact ⟨params, rfl, rfl, rfl⟩
    all_goals simp [Frame.refused] at hg

theorem log_step_subset (ω : Choice) (world : World) (f : Frame) :
    world.log ⊆ (step ω world f).shared.log := by
  obtain ⟨_, n, -, hs⟩ | ⟨v, -, hs⟩ := step_cases ω world f
  · rw [hs]
    exact subset_append_left _ _
  · rw [hs]
    exact List.Subset.refl _

end Uptrakit.Update
