import Uptrakit.Concurrent.Pool
import Uptrakit.Update.Batch

/-!
# Tasks of the update pipeline

The operations of the pipeline, cut at their accesses to the database: a frame
is a point at which an operation is about to issue one statement, with the data
it has read so far.  The operations are

* `trigger_update_for_host` and `create_batch`, which insert rows;
* `dispatch_next_queued_for_host` and the two promotion loops of the service
  handler, which take the next row of a host out of its queue;
* `run_protection_and_dispatch`, the orchestrator;
* the agent's messages: the claim of an update, its result, a batch result;
* the reconnect of an agent, `prepare_reconnect_replay`;
* one sweep of the reaper, and the rollout cleanup at boot.

Ends of `AwaitingRestart` (version checks and their timeout), output lines,
notifications and failures of the database itself are not part of the model.
Copies of rows that the code patches after a write keep here the columns as they
were read; the later steps use columns that no statement changes.
-/

namespace Uptrakit.Update

open Concurrent

/-! ## Inputs -/

/-- Parameters for `trigger_update_for_host`. -/
structure TriggerUpdateParams where
  tenantId : Uuid
  itemId : Uuid
  hostId : Uuid
  toVersion : String
  interactive : Bool

/-- What is used of a `ValidatedUpdateTarget`. -/
structure Target where
  hsiLinkId : Uuid
  installedVersion : Option String
  prefersInteractive : Bool

/-- A candidate of a batch with the link its validation finds. -/
structure Candidate where
  hostId : Uuid
  softwareItemId : Uuid
  hsiLinkId : Uuid
  installedVersion : String
  latestVersion : String

structure ProtectionDecision where
  attempted : Bool
  succeeded : Bool
  protectionStatus : Option String
  protectionSummary : Option String
  deriving DecidableEq

inductive ProtectionAnswer
  | error
  | decision (d : ProtectionDecision)

/-- `ReconnectSuccessorDispatchMode`. -/
inductive SuccessorMode
  | immediate
  | replayPrepared
  deriving DecidableEq

/-- What a step cannot know: the clock, generated ids, other tables and the
answers of plugins and agents. -/
structure Choice where
  now : Time := 0
  newId : Nat → Uuid := id
  batchId : Uuid := 0
  /-- The answer of `load_target_for_dispatch`. -/
  target : Except String Target := .ok ⟨0, none, false⟩
  /-- The tenant of the service that is looked up, if the service exists. -/
  serviceTenantId : Option Uuid := some 0
  /-- The agent is connected. -/
  connected : Bool := true
  /-- The pending record can be reconstructed by `build_execute_payload`. -/
  replayable : Bool := true
  linkedHostIds : List Uuid := []
  eligible : Candidate → Bool := fun _ => true
  /-- The answer of the protection plugin, `none` if there is no plugin. -/
  protection : Option ProtectionAnswer := none
  /-- The error of `dispatch_update_to_agent`, if it fails. -/
  dispatchError : Option String := none
  /-- The hint that `finalize_post_update` stores, if it stores one. -/
  recoveryHint : Option (Option String) := none
  /-- Output of the update as selected or consolidated from its lines, and
  whether it was truncated. -/
  output : String := ""
  truncated : Bool := false
  /-- `pending_row_is_reapable`, and no linked service is connected. -/
  reapable : Row → Bool := fun _ => true

/-! ## Frames -/

structure BatchItem where
  updateHistoryId : Uuid
  hostId : Uuid
  shouldDispatch : Bool
  deriving DecidableEq

structure BatchRun where
  batchId : Uuid
  tenantId : Uuid
  items : List BatchItem
  deriving DecidableEq

/-- A call of `dispatch_next_queued_for_host`: its arguments, the batch that
`dispatch_next_in_batch` checks after it, and the rest of the `create_batch` that
called it.  An error skips both. -/
structure Loop where
  hostId : Uuid
  tenantId : Uuid
  batch : Option Uuid := none
  resume : Option BatchRun := none
  deriving DecidableEq

inductive Promotion
  /-- `dispatch_next_queued_for_host`: runs protection and dispatches itself. -/
  | forHost (l : Loop)
  /-- `dispatch_next_queued_update_with_notifier`: hands over to the orchestrator. -/
  | handler (tenantId hostId : Uuid)
  /-- `dispatch_next_queued_update_for_replay`: only promotes. -/
  | forReplay (hostId : Uuid)

def Promotion.hostId : Promotion → Uuid
  | forHost l => l.hostId
  | handler _ hostId => hostId
  | forReplay hostId => hostId

/-- The promotion goes on to run protection itself. -/
def Promotion.byLoop : Promotion → Bool
  | forHost _ => true
  | handler _ _ | forReplay _ => false

inductive Caller
  | promotion (l : Loop) (next : Row)
  | orchestrator (updateHistoryId : Uuid)
  | batch (item : BatchItem) (rest : BatchRun)

def Caller.updateHistoryId : Caller → Uuid
  | promotion _ next => next.id
  | orchestrator updateHistoryId => updateHistoryId
  | batch item _ => item.updateHistoryId

/-- The state of `prepare_pending_replay_messages` inside its loop over the
pending records. -/
structure Replay where
  serviceId : Uuid
  dispatchedBatchHosts : List (Uuid × Uuid) := []
  failedAny : Bool := false

/-- Points in the operations, each before one access to the database. -/
inductive Frame
  -- `trigger_update_for_host`
  | validateUpdatePreconditions (params : TriggerUpdateParams)
  | hasActiveUpdateForHostSoftwareItem (params : CreateUpdateRecordParams)
  | hasActiveUpdateForHost (params : CreateUpdateRecordParams)
  | insertQueued (params : CreateUpdateRecordParams)
  | insertPending (params : CreateUpdateRecordParams)
  -- `create_batch`
  | validateCandidates (tenantId : Uuid) (candidates : List Candidate)
  | checkHosts (tenantId : Uuid) (validated : List Candidate) (busy : List Uuid)
      (remaining : List Candidate)
  | insertBatch (tenantId : Uuid) (validated : List Candidate) (busy : List Uuid)
  | dispatchItems (items : BatchRun)
  -- promotion
  | findServiceForBatch (serviceId batchId hostId : Uuid)
  | findServiceForQueue (serviceId hostId : Uuid)
  | findQueued (p : Promotion)
  | promote (p : Promotion) (next : Row)
  | loadTarget (p : Promotion) (next : Row)
  | failDispatch (p : Promotion) (next : Row) (error : String)
  | maybeCompleteBatch (batchId tenantId : Uuid)
  -- `prepare_pre_update_protection` and `dispatch_update_to_agent`
  | prepareProtection (caller : Caller)
  | recordProtection (caller : Caller) (answer : ProtectionAnswer)
  | dispatchUpdateToAgent (caller : Caller)
  -- `run_protection_and_dispatch`
  | checkConnected (updateHistoryId : Uuid)
  | setInprogress (updateHistoryId : Uuid)
  | failBeforeAgentDispatch (updateHistoryId : Uuid)
  | consolidateOutput (updateHistoryId : Uuid)
  -- `handle_update_started`
  | readForClaim (updateHistoryId serviceId : Uuid) (runtimeInstanceId : Option Uuid)
      (interactive : Bool)
  | claimPending (updateHistoryId serviceId : Uuid) (runtimeInstanceId : Option Uuid)
      (interactive : Bool)
  | claimInProgress (updateHistoryId serviceId : Uuid) (runtimeInstanceId : Option Uuid)
      (interactive : Bool)
  -- `handle_update_result` and `handle_batch_update_result`
  | readForResult (updateHistoryId : Uuid) (args : FinalizeArgs) (resumable : Bool)
  | transitionToAwaitingRestart (record : Row) (args : FinalizeArgs) (truncated : Bool)
  | finalizeUpdateResult (record : Row) (args : FinalizeArgs) (truncated : Bool)
  | failPendingUnowned (record : Row) (args : FinalizeArgs) (truncated : Bool)
  | finalizePostUpdate (updateHistoryId : Uuid)
  | markOutputTruncated (updateHistoryId : Uuid)
  | batchResult (items : List (Uuid × FinalizeArgs))
  | finalizeBatchItem (record : Row) (args : FinalizeArgs)
  -- `prepare_reconnect_replay`
  | loadOwnedReconnectCandidates (serviceId : Uuid) (runtimeInstanceId : Option Uuid)
      (mode : SuccessorMode)
  | markOwnedInterrupted (serviceId : Uuid) (runtimeInstanceId : Option Uuid)
      (mode : SuccessorMode) (candidates : List Row)
  | markOrchestratorFailed (serviceId : Uuid) (mode : SuccessorMode) (interrupted : List Row)
  | loadPendingUpdateRecords (serviceId : Uuid)
  | preparePendingRecords (replay : Replay) (records : List Row)
  | failUnreplayable (replay : Replay) (record : Row) (rest : List Row)
  -- `spawn_update_reaper`
  | selectOverdue
  | reapOverdue (now : Time) (overdue : List Row)
  | listStalledPending (now : Time) (reaped : List Row)
  | selectStalledPending (now : Time) (reaped : List Row) (ids : List Uuid)
  | reapStalledPending (now : Time) (reaped candidates : List Row)
  | publishReaped (reaped pendingReaped : List Row)
  -- the rollout cleanup
  | selectInProgress
  | markRollout (candidates : List Row)

inductive Operation
  | triggerUpdateForHost (params : TriggerUpdateParams)
  | createBatch (tenantId : Uuid) (candidates : List Candidate)
  | updateStarted (updateHistoryId serviceId : Uuid) (runtimeInstanceId : Option Uuid)
      (interactive : Bool)
  | updateResult (updateHistoryId : Uuid) (args : FinalizeArgs) (resumable : Bool)
  | batchUpdateResult (items : List (Uuid × FinalizeArgs))
  | reconnect (serviceId : Uuid) (runtimeInstanceId : Option Uuid) (mode : SuccessorMode)
  | reaperSweep
  | rollout

def Operation.enter : Operation → Frame
  | triggerUpdateForHost params => .validateUpdatePreconditions params
  | createBatch tenantId candidates => .validateCandidates tenantId candidates
  | updateStarted updateHistoryId serviceId runtimeInstanceId interactive =>
    .readForClaim updateHistoryId serviceId runtimeInstanceId interactive
  | updateResult updateHistoryId args resumable => .readForResult updateHistoryId args resumable
  | batchUpdateResult items => .batchResult items
  | reconnect serviceId runtimeInstanceId mode =>
    .loadOwnedReconnectCandidates serviceId runtimeInstanceId mode
  | reaperSweep => .selectOverdue
  | rollout => .selectInProgress

/-- What the pipeline does besides writing to the database, as far as the results
speak of it. -/
inductive Event
  /-- A row was promoted; `byLoop` tells promotions of
  `dispatch_next_queued_for_host` from those of the handler. -/
  | promoted (updateHistoryId : Uuid) (byLoop : Bool)
  /-- The protection plugin was started for an update. -/
  | protectionStarted (updateHistoryId : Uuid)
  /-- `claim_or_replay_update_start_db` claimed an update. -/
  | claimed (updateHistoryId : Uuid)
  /-- `reap_overdue_updates` returned these rows. -/
  | overdueReaped (ids : List Uuid)
  /-- `reap_stalled_pending_updates` returned these rows. -/
  | pendingReaped (ids : List Uuid)
  /-- The reaper published an `Interrupted` event. -/
  | interruptedPublished (updateHistoryId : Uuid)
  deriving DecidableEq

end Uptrakit.Update
