import Mathlib.Data.List.MinMax
import Mathlib.Data.List.Sort
import Uptrakit.Update.Task

/-!
# The update pipeline as a pool of tasks

Each frame issues one statement (`Frame.statement`) and continues according to
what the statement answered (`Frame.next`).  A statement that breaks a unique
index fails and changes nothing (`Frame.refused`).  `pipeline` is the resulting
program: any number of operations run at once and interleave at every statement,
so the runs of `pipeline` are the interleavings under read committed isolation.
-/

namespace Uptrakit.Update

open Concurrent

/-! ## Statements -/

/-- The statements of the pipeline.  `read` stands for any query. -/
inductive Statement
  | read
  | insert (row : Row)
  /-- The transaction of `create_batch`. -/
  | insertBatch (batchId : Uuid) (batch : Batch) (rows : List Row)
  /-- The transaction of `maybe_complete_batch`. -/
  | completeBatch (batchId tenantId : Uuid) (now : Time)
  | write (w : Write)

def Statement.rows : Statement → List Row → List Row
  | read, rows | completeBatch _ _ _, rows => rows
  | insert row, rows => rows ++ [row]
  | insertBatch _ _ new, rows => rows ++ new
  | write w, rows => rows.map w.row

namespace Db

/-- Execute a statement; the number is that of the affected rows. -/
def execute (db : Db) : Statement → Except Violation (Db × Nat)
  | .read => .ok (db, 0)
  | .insert row => do
      let history ← db.history.insert [row]
      return ({ db with history := history }, 1)
  | .insertBatch batchId batch rows =>
    if batchId ∈ db.batches then .error .constraint
    else do
      let history ← db.history.insert rows
      return ({ history := history, batches := db.batches.insert batchId batch }, rows.length)
  | .completeBatch batchId tenantId now => .ok ((db.maybeCompleteBatch batchId tenantId now).1, 0)
  | .write w => do
      let history ← db.history.update w.toUpdate
      return ({ db with history := history }, db.history.affected w.toUpdate)

def find (db : Db) (id : Uuid) : Option Row := db.history.rows.find? (·.id == id)

def hasActiveUpdateForHost (db : Db) (hostId : Uuid) : Bool :=
  db.history.rows.any fun r => r.hostId == hostId && r.status.hostBlocking

def hasActiveUpdateForHostSoftwareItem (db : Db) (hostId softwareItemId : Uuid) : Bool :=
  db.history.rows.any fun r =>
    r.hostId == hostId && r.softwareItemId == softwareItemId && r.status.unfinished

def nextQueued (db : Db) (hostId : Uuid) : Option Row :=
  (db.history.rows.filter fun r => r.hostId == hostId && r.status == .queued).argmin (·.id)

def pendingUpdates (db : Db) (hostIds : List Uuid) : List Row :=
  (db.history.rows.filter fun r => hostIds.contains r.hostId && r.status == .pending).insertionSort
    (·.id ≤ ·.id)

/-- Those of the given copies whose row a statement matches now. -/
def matched (db : Db) (w : Write) (copies : List Row) : List Row :=
  copies.filter fun copy => db.history.rows.any fun r => r.id == copy.id && w.guard r

end Db

/-! ## The reaper's tests -/

def seconds (s : Int) : Time := s * 1000000000

def maxTime : Time := 253402300799999999999

def maxBudgetSecs : Int := 60 * 60 * 24 * 30

def reaperGrace : Int := 300

def pendingDispatchGrace : Int := 600

def Row.budget (r : Row) : Int :=
  match r.timeoutSeconds with
  | some s => if 0 ≤ s then min s maxBudgetSecs else defaultUpdateTimeout
  | none => defaultUpdateTimeout

/-- The test of `reap_overdue_updates`: in progress, started, and past the deadline
or with a deadline that cannot be represented. -/
def Row.overdue (now : Time) (r : Row) : Bool :=
  r.status == .inProgress &&
    match r.startedAt with
    | none => false
    | some started =>
      let deadline := started + seconds (r.budget + reaperGrace)
      decide (maxTime < deadline) || decide (deadline < now)

/-- The test of `list_stalled_pending_updates`. -/
def Row.stalledPending (now : Time) (r : Row) : Bool :=
  r.status == .pending && decide (r.createdAt < now - seconds pendingDispatchGrace)

namespace Db

/-- The rows that `reap_overdue_updates` selects. -/
def overdueUpdates (db : Db) (now : Time) : List Row := db.history.rows.filter (Row.overdue now)

/-- The rows of `list_stalled_pending_updates` that the reaper keeps. -/
def stalledUpdates (db : Db) (now : Time) (reapable : Row → Bool) : List Row :=
  db.history.rows.filter fun r => r.stalledPending now && reapable r

/-- The rows that `reap_stalled_pending_updates` selects. -/
def pendingAmong (db : Db) (ids : List Uuid) : List Row :=
  db.history.rows.filter fun r => ids.contains r.id && r.status == .pending

end Db

/-! ## Rows of a new batch -/

/-- The initial status of each candidate: all candidates of a busy host are
queued, of a free host all but the first. -/
def initialStatuses (busy : List Uuid) : List Uuid → List Candidate → List (Candidate × Status)
  | _, [] => []
  | seen, c :: rest =>
    if busy.contains c.hostId || seen.contains c.hostId then
      (c, .queued) :: initialStatuses busy seen rest
    else
      (c, .pending) :: initialStatuses busy (c.hostId :: seen) rest

def Candidate.params (c : Candidate) (tenantId batchId : Uuid) (status : Status) :
    CreateUpdateRecordParams where
  tenantId := tenantId
  hostId := c.hostId
  itemId := c.softwareItemId
  hostSoftwareItemId := some c.hsiLinkId
  toVersion := c.latestVersion
  fromVersion := some c.installedVersion
  batchId := some batchId
  initialStatus := status
  interactive := false

/-- The rows of a new batch; the `k`-th row gets the `k`-th generated id. -/
def batchRows (ω : Choice) (tenantId : Uuid) (validated : List Candidate) (busy : List Uuid) :
    List Row :=
  (initialStatuses busy [] validated).mapIdx fun k cs =>
    (cs.1.params tenantId ω.batchId cs.2).record (ω.newId k) ω.now

def batchRun (batchId tenantId : Uuid) (rows : List Row) : BatchRun where
  batchId := batchId
  tenantId := tenantId
  items := rows.map fun r => ⟨r.id, r.hostId, r.status == .pending⟩

/-! ## What a frame does -/

def ProtectionAnswer.write (id : Uuid) (now : Time) : ProtectionAnswer → Write
  | error => .failBeforeAgentDispatch id now none none
  | decision d =>
    if !d.attempted then
      .writePreUpdateProtectionStatus id (some "skipped") d.protectionSummary
    else if d.succeeded then
      .writePreUpdateProtectionStatus id d.protectionStatus d.protectionSummary
    else
      .failBeforeAgentDispatch id now d.protectionStatus d.protectionSummary

/-- `PreUpdateProtectionOutcome` is `Failed`. -/
def ProtectionAnswer.failed : ProtectionAnswer → Bool
  | error => true
  | decision d => d.attempted && !d.succeeded

namespace Frame

/-- The statement a frame issues; all other frames only read. -/
def statement (ω : Choice) : Frame → Statement
  | insertQueued params =>
    .insert (CreateUpdateRecordParams.record { params with initialStatus := .queued }
      (ω.newId 0) ω.now)
  | insertPending params =>
    .insert (CreateUpdateRecordParams.record { params with initialStatus := .pending }
      (ω.newId 0) ω.now)
  | insertBatch tenantId validated busy =>
    .insertBatch ω.batchId
      { tenantId := tenantId
        status := .inProgress
        totalCount := validated.length
        completedAt := none }
      (batchRows ω tenantId validated busy)
  | promote _ next => .write (.promote next.id)
  | failDispatch _ next error => .write (.failDispatch next.id ω.now error)
  | maybeCompleteBatch batchId tenantId => .completeBatch batchId tenantId ω.now
  | recordProtection caller answer => .write (answer.write caller.updateHistoryId ω.now)
  | setInprogress updateHistoryId =>
    .write (.setInprogressForOrchestrator updateHistoryId ω.now)
  | failBeforeAgentDispatch updateHistoryId =>
    .write (.failBeforeAgentDispatch updateHistoryId ω.now none none)
  | consolidateOutput updateHistoryId =>
    .write (.consolidateProtectionOutput updateHistoryId ω.output ω.truncated)
  | claimPending updateHistoryId serviceId runtimeInstanceId interactive =>
    .write (.claimPending updateHistoryId serviceId runtimeInstanceId interactive ω.now)
  | claimInProgress updateHistoryId serviceId runtimeInstanceId interactive =>
    .write (.claimInProgress updateHistoryId serviceId runtimeInstanceId interactive)
  | transitionToAwaitingRestart record args _ =>
    .write (.transitionToAwaitingRestart record.id args.serviceId ω.now)
  | finalizeUpdateResult record args _ =>
    .write (.finalizeUpdateResultIfOwned record.id args ω.now)
  | failPendingUnowned record args _ =>
    .write (.failPendingUnownedUpdate record.id ω.now (finalOutput args.output args.error))
  | finalizePostUpdate updateHistoryId =>
    match ω.recoveryHint with
    | some hi => .write (.writeRecoveryHint updateHistoryId hi)
    | none => .read
  | markOutputTruncated updateHistoryId => .write (.markOutputTruncated updateHistoryId)
  | finalizeBatchItem record args => .write (.finalizeBatchItemIfOwned record.id args ω.now)
  | markOwnedInterrupted serviceId runtimeInstanceId _ candidates =>
    .write (.markOwnedInProgressAsInterruptedOnReconnect (candidates.map (·.id)) serviceId
      runtimeInstanceId ω.now)
  | markOrchestratorFailed _ _ _ =>
    .write (.markOrchestratorInprogressAsFailedOnReconnect ω.linkedHostIds ω.now)
  | failUnreplayable _ record _ => .write (.failUnreplayablePendingUpdate record.id ω.now)
  | reapOverdue now overdue => .write (.reapOverdueUpdates (overdue.map (·.id)) now)
  | reapStalledPending now _ candidates =>
    .write (.reapStalledPendingUpdates (candidates.map (·.id)) now)
  | markRollout candidates =>
    .write (.markAllInProgressAsInterruptedForRollout (candidates.map (·.id)) ω.now)
  | _ => .read

/-- How an operation continues: its next frames, the tasks it spawns and the
events it emits. -/
structure Next where
  frames : List Frame := []
  spawned : List Frame := []
  events : List Event := []

/-- `dispatch_next_queued_for_host` returned `Ok`. -/
@[simp] def done (l : Loop) : List Frame :=
  (l.batch.map fun batchId => maybeCompleteBatch batchId l.tenantId).toList ++
    (l.resume.map dispatchItems).toList

/-- An iteration of `dispatch_next_queued_for_host` ended with a failed update. -/
@[simp] def retry (l : Loop) (next : Row) : List Frame :=
  (next.batchId.map fun batchId => maybeCompleteBatch batchId next.tenantId).toList ++
    [findQueued (.forHost l)]

/-- Batch or queue dispatch after an update of a service ended. -/
@[simp] def successor (serviceId : Uuid) (record : Row) : Frame :=
  match record.batchId with
  | some batchId => findServiceForBatch serviceId batchId record.hostId
  | none => findServiceForQueue serviceId record.hostId

/-- The dispatch of `notify_failed_reconnect_update`. -/
@[simp] def notifyFailedReconnectUpdate (serviceId : Uuid) (mode : SuccessorMode) (record : Row) :
    Frame :=
  match mode, record.batchId with
  | .replayPrepared, none => findQueued (.forReplay record.hostId)
  | _, _ => successor serviceId record

@[simp] def afterResult (record : Row) (args : FinalizeArgs) (truncated : Bool) : List Frame :=
  finalizePostUpdate record.id :: (if truncated then [markOutputTruncated record.id] else []) ++
    [successor args.serviceId record]

@[simp] def afterEmptyQueue : Promotion → List Frame
  | .forHost l => done l
  | .handler _ _ | .forReplay _ => []

/-- Another task promoted the row first. -/
@[simp] def afterMiss : Promotion → List Frame
  | .forReplay _ => []
  | p => [findQueued p]

@[simp] def afterPromotion (next : Row) : Promotion → List Frame
  | .forReplay _ => []
  | p => [loadTarget p next]

@[simp] def afterTarget (next : Row) : Promotion → Next
  | .forHost l => { frames := [prepareProtection (.promotion l next)] }
  | .handler _ _ | .forReplay _ => { spawned := [checkConnected next.id] }

/-- The target of a promoted row could not be loaded, or its dispatch failed. -/
@[simp] def afterFailDispatch (next : Row) : Promotion → List Frame
  | .forHost l => retry l next
  | _ => []

@[simp] def afterFailedProtection : Caller → List Frame
  | .promotion l next => retry l next
  | .orchestrator updateHistoryId => [consolidateOutput updateHistoryId]
  | .batch item rest =>
    [findQueued (.forHost ⟨item.hostId, rest.tenantId, some rest.batchId, some rest⟩)]

@[simp] def afterDispatch (dispatchError : Option String) : Caller → List Frame
  | .promotion l next =>
    match dispatchError with
    | none => done l
    | some e => [failDispatch (.forHost l) next e]
  | .orchestrator updateHistoryId =>
    match dispatchError with
    | none => []
    | some _ => [failBeforeAgentDispatch updateHistoryId]
  | .batch _ rest =>
    match dispatchError with
    | none => [dispatchItems rest]
    | some _ => []

/-- The rest of `prepare_single_pending_record` after the test of the protection
status. -/
@[simp] def prepareMessage (ω : Choice) (replay : Replay) (record : Row) (rest : List Row) :
    List Frame :=
  if ω.replayable then [preparePendingRecords replay rest]
  else [failUnreplayable replay record rest]

/-- `prepare_single_pending_record`: an unprotected record is handed to the
orchestrator, of each batch and host only the first record is replayed. -/
@[simp] def prepareSinglePendingRecord (ω : Choice) (replay : Replay) (record : Row)
    (rest : List Row) : Next :=
  if record.preUpdateProtectionStatus = none then
    match ω.target with
    | .ok _ =>
      { frames := [preparePendingRecords replay rest], spawned := [checkConnected record.id] }
    | .error _ => { frames := [failUnreplayable replay record rest] }
  else
    match record.batchId with
    | none => { frames := prepareMessage ω replay record rest }
    | some batchId =>
      if replay.dispatchedBatchHosts.contains (batchId, record.hostId) then
        { frames := [preparePendingRecords replay rest] }
      else
        { frames := prepareMessage ω
            { replay with
              dispatchedBatchHosts := (batchId, record.hostId) :: replay.dispatchedBatchHosts }
            record rest }

/-- The batch of a reaped row is advanced through the service that owned it. -/
@[simp] def advanceReaped (row : Row) : List Frame :=
  match row.batchId, row.executionOwnerServiceId with
  | some batchId, some serviceId => [findServiceForBatch serviceId batchId row.hostId]
  | _, _ => []

/-- The batch of a reaped pending row is advanced by its tenant. -/
@[simp] def advancePendingReaped (row : Row) : List Frame :=
  match row.batchId with
  | some batchId => [findQueued (.forHost ⟨row.hostId, row.tenantId, some batchId, none⟩)]
  | none => []

/-- `create_batch` asks of each host once whether it is busy. -/
def checkHost (db : Db) (busy : List Uuid) (c : Candidate) : List Uuid :=
  if busy.contains c.hostId then busy
  else if db.hasActiveUpdateForHost c.hostId then c.hostId :: busy else busy

/-- The record that `trigger_update_for_host` inserts, up to its initial status. -/
def buildRecord (params : TriggerUpdateParams) (target : Target) : CreateUpdateRecordParams where
  tenantId := params.tenantId
  hostId := params.hostId
  itemId := params.itemId
  hostSoftwareItemId := some target.hsiLinkId
  toVersion := params.toVersion
  fromVersion := target.installedVersion
  batchId := none
  initialStatus := .queued
  interactive := params.interactive || target.prefersInteractive

/-- How a frame continues when its statement, issued in `db`, affected `n`
rows. -/
def next (ω : Choice) (db : Db) (n : Nat) : Frame → Next
  | validateUpdatePreconditions params =>
    match ω.target with
    | .ok target =>
      { frames := [hasActiveUpdateForHostSoftwareItem (buildRecord params target)] }
    | .error _ => {}
  | hasActiveUpdateForHostSoftwareItem params =>
    if db.hasActiveUpdateForHostSoftwareItem params.hostId params.itemId then {}
    else { frames := [hasActiveUpdateForHost params] }
  | hasActiveUpdateForHost params =>
    if db.hasActiveUpdateForHost params.hostId then { frames := [insertQueued params] }
    else { frames := [insertPending params] }
  | insertQueued _ => {}
  | insertPending _ => { spawned := [checkConnected (ω.newId 0)] }
  | validateCandidates tenantId candidates =>
    if (candidates.filter ω.eligible).isEmpty then {}
    else
      { frames := [checkHosts tenantId (candidates.filter ω.eligible) []
          (candidates.filter ω.eligible)] }
  | checkHosts tenantId validated busy remaining =>
    match remaining with
    | [] => { frames := [insertBatch tenantId validated busy] }
    | c :: rest => { frames := [checkHosts tenantId validated (checkHost db busy c) rest] }
  | insertBatch tenantId validated busy =>
    { frames := [dispatchItems (batchRun ω.batchId tenantId
        (batchRows ω tenantId validated busy))] }
  | dispatchItems run =>
    match run.items with
    | [] => {}
    | item :: rest =>
      if item.shouldDispatch then
        { frames := [prepareProtection (.batch item { run with items := rest })] }
      else { frames := [dispatchItems { run with items := rest }] }
  | findServiceForBatch _ batchId hostId =>
    match ω.serviceTenantId with
    | some tenantId => { frames := [findQueued (.forHost ⟨hostId, tenantId, some batchId, none⟩)] }
    | none => {}
  | findServiceForQueue _ hostId =>
    match ω.serviceTenantId with
    | some tenantId => { frames := [findQueued (.handler tenantId hostId)] }
    | none => {}
  | findQueued p =>
    match db.nextQueued p.hostId with
    | some next => { frames := [promote p next] }
    | none => { frames := afterEmptyQueue p }
  | promote p next =>
    if n = 0 then { frames := afterMiss p }
    else { frames := afterPromotion next p, events := [.promoted next.id p.byLoop] }
  | loadTarget p next =>
    match ω.target with
    | .error e => { frames := [failDispatch p next e] }
    | .ok _ => afterTarget next p
  | failDispatch p next _ => { frames := afterFailDispatch next p }
  | maybeCompleteBatch _ _ => {}
  | prepareProtection caller =>
    match ω.protection with
    | none => { frames := [dispatchUpdateToAgent caller] }
    | some answer =>
      { frames := [recordProtection caller answer]
        events := [.protectionStarted caller.updateHistoryId] }
  | recordProtection caller answer =>
    if answer.failed then { frames := afterFailedProtection caller }
    else { frames := [dispatchUpdateToAgent caller] }
  | dispatchUpdateToAgent caller => { frames := afterDispatch ω.dispatchError caller }
  | checkConnected updateHistoryId =>
    if ω.connected then { frames := [setInprogress updateHistoryId] } else {}
  | setInprogress updateHistoryId =>
    if n = 0 then {} else { frames := [prepareProtection (.orchestrator updateHistoryId)] }
  | failBeforeAgentDispatch updateHistoryId => { frames := [consolidateOutput updateHistoryId] }
  | consolidateOutput _ => {}
  | readForClaim updateHistoryId serviceId runtimeInstanceId interactive =>
    match db.find updateHistoryId with
    | none => {}
    | some record =>
      if !ω.linkedHostIds.contains record.hostId then {}
      else if record.status == .pending && unownedCondition record then
        { frames := [claimPending updateHistoryId serviceId runtimeInstanceId interactive] }
      else if record.status == .inProgress && record.executionOwnerServiceId == none then
        { frames := [claimInProgress updateHistoryId serviceId runtimeInstanceId interactive] }
      else {}
  | claimPending updateHistoryId _ _ _ | claimInProgress updateHistoryId _ _ _ =>
    if n = 0 then {} else { events := [.claimed updateHistoryId] }
  | readForResult updateHistoryId args resumable =>
    match db.find updateHistoryId with
    | none => {}
    | some record =>
      if !ω.linkedHostIds.contains record.hostId then {}
      else if args.status == .completed && resumable then
        { frames := [transitionToAwaitingRestart record { args with output := ω.output }
            ω.truncated] }
      else
        { frames := [finalizeUpdateResult record { args with output := ω.output }
            ω.truncated] }
  | transitionToAwaitingRestart record args truncated =>
    if n = 0 then { frames := [finalizeUpdateResult record args truncated] } else {}
  | finalizeUpdateResult record args truncated =>
    if n = 0 then
      if args.status == .completed then {}
      else { frames := [failPendingUnowned record args truncated] }
    else { frames := afterResult record args truncated }
  | failPendingUnowned record args truncated =>
    if n = 0 then {} else { frames := afterResult record args truncated }
  | finalizePostUpdate _ | markOutputTruncated _ => {}
  | batchResult items =>
    match items with
    | [] => {}
    | (updateHistoryId, args) :: rest =>
      match db.find updateHistoryId with
      | none => { frames := [batchResult rest] }
      | some record =>
        if ω.linkedHostIds.contains record.hostId then
          { frames := [finalizeBatchItem record args, batchResult rest] }
        else { frames := [batchResult rest] }
  | finalizeBatchItem record _ =>
    if n = 0 then {} else { frames := [finalizePostUpdate record.id] }
  | loadOwnedReconnectCandidates serviceId runtimeInstanceId mode =>
    { frames := [markOwnedInterrupted serviceId runtimeInstanceId mode
        (db.history.rows.filter (orphanedCondition serviceId runtimeInstanceId))] }
  | markOwnedInterrupted serviceId runtimeInstanceId mode candidates =>
    { frames := [markOrchestratorFailed serviceId mode
        (db.matched (.markOwnedInProgressAsInterruptedOnReconnect (candidates.map (·.id))
          serviceId runtimeInstanceId ω.now) candidates)] }
  | markOrchestratorFailed serviceId mode interrupted =>
    { frames :=
        (interrupted.flatMap fun record =>
          [finalizePostUpdate record.id, notifyFailedReconnectUpdate serviceId mode record]) ++
        match mode with
        | .immediate => []
        | .replayPrepared => [loadPendingUpdateRecords serviceId] }
  | loadPendingUpdateRecords serviceId =>
    if (db.pendingUpdates ω.linkedHostIds).isEmpty then {}
    else
      { frames := [preparePendingRecords { serviceId := serviceId }
          (db.pendingUpdates ω.linkedHostIds)] }
  | preparePendingRecords replay records =>
    match records with
    | record :: rest => prepareSinglePendingRecord ω replay record rest
    | [] =>
      if replay.failedAny then { frames := [loadPendingUpdateRecords replay.serviceId] } else {}
  | failUnreplayable replay record rest =>
    if n = 0 then { frames := [preparePendingRecords replay rest] }
    else
      { frames :=
          [finalizePostUpdate record.id,
            notifyFailedReconnectUpdate replay.serviceId .replayPrepared record,
            preparePendingRecords { replay with failedAny := true } rest] }
  | selectOverdue =>
    if (db.overdueUpdates ω.now).isEmpty then { frames := [listStalledPending ω.now []] }
    else { frames := [reapOverdue ω.now (db.overdueUpdates ω.now)] }
  | reapOverdue now overdue =>
    { frames := [listStalledPending now overdue]
      events := [.overdueReaped (overdue.map (·.id))] }
  | listStalledPending now reaped =>
    if (db.stalledUpdates now ω.reapable).isEmpty then { frames := [publishReaped reaped []] }
    else
      { frames := [selectStalledPending now reaped
          ((db.stalledUpdates now ω.reapable).map (·.id))] }
  | selectStalledPending now reaped ids =>
    if (db.pendingAmong ids).isEmpty then { frames := [publishReaped reaped []] }
    else { frames := [reapStalledPending now reaped (db.pendingAmong ids)] }
  | reapStalledPending _ reaped candidates =>
    { frames := [publishReaped reaped candidates]
      events := [.pendingReaped (candidates.map (·.id))] }
  | publishReaped reaped pendingReaped =>
    { frames := reaped.flatMap advanceReaped ++ pendingReaped.flatMap advancePendingReaped
      events := (reaped ++ pendingReaped).map fun row => .interruptedPublished row.id }
  | selectInProgress =>
    { frames := [markRollout (db.history.rows.filter (·.status == .inProgress))] }
  | markRollout candidates =>
    { frames :=
        (db.matched (.markAllInProgressAsInterruptedForRollout (candidates.map (·.id)) ω.now)
          candidates).flatMap fun record =>
            [finalizePostUpdate record.id,
              findQueued (.forHost ⟨record.hostId, record.tenantId, record.batchId, none⟩)] }

/-- How a frame continues when its statement breaks a unique index: the trigger
queues the update that it could not insert as pending, every other operation
ends. -/
def refused : Frame → List Frame
  | insertPending params => [insertQueued params]
  | _ => []

end Frame

/-! ## The program -/

structure World where
  db : Db
  log : List Event

def step (ω : Choice) (world : World) (f : Frame) : Outcome World Frame :=
  match world.db.execute (f.statement ω) with
  | .ok (db, n) =>
    { shared := { db := db, log := world.log ++ (f.next ω world.db n).events }
      frames := (f.next ω world.db n).frames
      spawned := (f.next ω world.db n).spawned }
  | .error _ => { shared := world, frames := f.refused }

def pipeline : Program Operation World Frame Choice where
  enter := Operation.enter
  step := step

def initial : Config World Frame where
  shared := { db := { history := ⟨[], by decide⟩, batches := ∅ }, log := [] }
  pool := []

end Uptrakit.Update
