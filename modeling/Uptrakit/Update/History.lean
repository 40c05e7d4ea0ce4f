import Uptrakit.Concurrent.Table
import Uptrakit.Text.Basic

/-!
# The update history

The rows of `update_history` with the two partial unique indexes of the table,
and every `UPDATE` statement that the update pipeline issues on it
(`crates/ui/web-api-queries/src/queries/{update_dispatch,update_reaper}.rs`,
`update_batches/dispatch.rs` and the service handlers of `crates/ui/web-api`).
Some of these statements are compare-and-set on the status, some are
unconditional; which is which is all that the later modules use of them.
-/

namespace Uptrakit.Update

open Concurrent Text

/-- Identifiers of rows; ids are time-ordered, so they are compared as numbers. -/
abbrev Uuid := Nat

abbrev Time := Int

/-! ## Status -/

inductive Status
  | queued | pending | inProgress | awaitingRestart | completed | failed | interrupted
  deriving DecidableEq

namespace Status

def unfinished : Status → Bool
  | queued | pending | inProgress | awaitingRestart => true
  | completed | failed | interrupted => false

/-- The statuses that block the host from running another update. -/
def hostBlocking : Status → Bool
  | pending | inProgress | awaitingRestart => true
  | queued | completed | failed | interrupted => false

end Status

/-- Outcome reported by an agent; every outcome but `completed` is a failure. -/
inductive FinalStatus
  | completed
  | failed
  | other (raw : String)
  deriving DecidableEq

def FinalStatus.toStatus : FinalStatus → Status
  | completed => .completed
  | failed | other _ => .failed

@[simp] theorem FinalStatus.toStatus_unfinished (s : FinalStatus) :
    s.toStatus.unfinished = false := by cases s <;> rfl

@[simp] theorem FinalStatus.toStatus_hostBlocking (s : FinalStatus) :
    s.toStatus.hostBlocking = false := by cases s <;> rfl

/-! ## Rows -/

/-- A row of `update_history`. -/
structure Row where
  id : Uuid
  tenantId : Uuid
  hostId : Uuid
  softwareItemId : Uuid
  hostSoftwareItemId : Option Uuid
  fromVersion : Option String
  toVersion : Option String
  status : Status
  output : String
  outputBytes : Int
  executionOwnerServiceId : Option Uuid
  executionOwnerInstanceId : Option Uuid
  startedAt : Option Time
  completedAt : Option Time
  awaitingRestartSince : Option Time
  createdAt : Time
  batchId : Option Uuid
  interactive : Bool
  outputTruncated : Bool
  preUpdateProtectionStatus : Option String
  preUpdateProtectionSummary : Option String
  recoveryHint : Option String
  timeoutSeconds : Option Int
  deriving DecidableEq

/-- Two rows that the primary key or one of the partial unique indexes
(`uix_update_history_host_active`, `uix_update_history_host_software_item_active`)
keeps from standing together. -/
def Row.Clash (a b : Row) : Prop :=
  a.id = b.id ∨
    (a.hostId = b.hostId ∧ a.status.hostBlocking = true ∧ b.status.hostBlocking = true) ∨
    (a.hostId = b.hostId ∧ a.softwareItemId = b.softwareItemId ∧
      a.status.unfinished = true ∧ b.status.unfinished = true)

instance : DecidableRel Row.Clash := fun _ _ => inferInstanceAs (Decidable (_ ∨ _))

/-- The integrity constraints of the table. -/
def NoClash (rows : List Row) : Prop := rows.Pairwise fun a b => ¬ a.Clash b

instance : DecidablePred NoClash := fun _ => inferInstanceAs (Decidable (List.Pairwise _ _))

variable {a b : Row}

theorem Row.Clash.symm : a.Clash b → b.Clash a := by
  rintro (h | ⟨h, ha, hb⟩ | ⟨hh, hs, ha, hb⟩)
  · exact .inl h.symm
  · exact .inr (.inl ⟨h.symm, hb, ha⟩)
  · exact .inr (.inr ⟨hh.symm, hs.symm, hb, ha⟩)

theorem NoClash.eq_of_clash {rows} (h : NoClash rows) (ha : a ∈ rows) (hb : b ∈ rows)
    (hc : a.Clash b) : a = b :=
  Apart.eq_of_clash h (fun _ _ => Row.Clash.symm) ha hb hc

/-- The table `update_history`. -/
abbrev History := Table NoClash

def Row.withOutput (r : Row) (output : String) : Row :=
  { r with output := output, outputBytes := len output }

/-- Budget of an update when the row has none, in seconds. -/
def defaultUpdateTimeout : Int := 7200

/-- Parameters for `create_update_history_record`. -/
structure CreateUpdateRecordParams where
  tenantId : Uuid
  hostId : Uuid
  itemId : Uuid
  hostSoftwareItemId : Option Uuid
  toVersion : String
  fromVersion : Option String
  batchId : Option Uuid
  initialStatus : Status
  interactive : Bool

/-- The row that `create_update_history_record` inserts. -/
def CreateUpdateRecordParams.record (params : CreateUpdateRecordParams) (id : Uuid) (now : Time) :
    Row where
  id := id
  tenantId := params.tenantId
  hostId := params.hostId
  softwareItemId := params.itemId
  hostSoftwareItemId := params.hostSoftwareItemId
  fromVersion := params.fromVersion
  toVersion := some params.toVersion
  status := params.initialStatus
  output := ""
  outputBytes := 0
  executionOwnerServiceId := none
  executionOwnerInstanceId := none
  startedAt := some now
  completedAt := none
  awaitingRestartSince := none
  createdAt := now
  batchId := params.batchId
  interactive := params.interactive
  outputTruncated := false
  preUpdateProtectionStatus := none
  preUpdateProtectionSummary := none
  recoveryHint := none
  timeoutSeconds := some defaultUpdateTimeout

/-! ## Texts -/

def recoveryHintText : String :=
  "execution outcome unknown — connection lost or deadline exceeded; " ++
    "verify the installed version before re-running"

def reapReason : String := "Update interrupted: deadline exceeded without a terminal result"

def pendingRecoveryHintText : String :=
  "the update never started on the host — the dispatch was not delivered before the " ++
    "agent connection was lost; safe to re-run once the agent reconnects"

def pendingReapReason : String :=
  "Update interrupted: dispatch never started — agent connection absent past the dispatch grace"

def preUpdateProtectionFailureSummary : String :=
  "Controller pre-update protection failed before dispatch."

def reconnectReason : String := "Update interrupted: agent restarted (outcome unknown)"

def rolloutReason : String := "Update interrupted: owner-aware rollout (outcome unknown)"

def orchestratorReason : String := "Protection interrupted: controller restarted"

def unreplayableReason : String :=
  "Update replay failed: controller could not reconstruct the pending update after reconnect"

/-! ## Statements -/

variable (serviceId : Uuid) (runtimeInstanceId : Option Uuid)

/-- Owner-guarded condition accepting any of the given statuses. -/
def ownedStatusCondition (statuses : List Status) (r : Row) : Bool :=
  statuses.contains r.status && r.executionOwnerServiceId == some serviceId &&
    r.executionOwnerInstanceId == runtimeInstanceId

def ownedInProgressCondition : Row → Bool :=
  ownedStatusCondition serviceId runtimeInstanceId [.inProgress]

/-- `owned_finalizable_condition`: a late result may also settle an interrupted
row. -/
def ownedFinalizableCondition : Row → Bool :=
  ownedStatusCondition serviceId runtimeInstanceId [.inProgress, .interrupted]

/-- The rows that a reconnecting service left in progress: owned by it, under
another runtime instance than the current one. -/
def orphanedCondition (r : Row) : Bool :=
  r.status == .inProgress && r.executionOwnerServiceId == some serviceId &&
    match runtimeInstanceId with
    | some current =>
      r.executionOwnerInstanceId == none || r.executionOwnerInstanceId != some current
    | none => r.executionOwnerInstanceId == none

def unownedCondition (r : Row) : Bool :=
  r.executionOwnerServiceId == none && r.executionOwnerInstanceId == none

structure FinalizeArgs where
  serviceId : Uuid
  runtimeInstanceId : Option Uuid
  status : FinalStatus
  error : Option String
  output : String
  fromVersion : Option String
  toVersion : Option String
  deriving DecidableEq

/-- The output that is stored: the agent's, or its error when it sent none. -/
def finalOutput (output : String) (error : Option String) : String :=
  if output = "" then error.getD "" else output

/-- The `UPDATE` statements on `update_history`, named after the functions that
issue them. -/
inductive Write
  /-- `Queued → Pending`, of both promotion loops. -/
  | promote (id : Uuid)
  | setInprogressForOrchestrator (id : Uuid) (now : Time)
  | writePreUpdateProtectionStatus (id : Uuid) (status summary : Option String)
  | failBeforeAgentDispatch (id : Uuid) (now : Time) (status summary : Option String)
  | consolidateProtectionOutput (id : Uuid) (output : String) (truncated : Bool)
  /-- The `dispatch failed: …` update by primary key, of both promotion loops. -/
  | failDispatch (id : Uuid) (now : Time) (error : String)
  /-- The claim of a `Pending` row in `claim_or_replay_update_start_db`. -/
  | claimPending (id serviceId : Uuid) (runtimeInstanceId : Option Uuid) (interactive : Bool)
      (now : Time)
  /-- The claim of an orchestrated row in `claim_or_replay_update_start_db`. -/
  | claimInProgress (id serviceId : Uuid) (runtimeInstanceId : Option Uuid) (interactive : Bool)
  | finalizeUpdateResultIfOwned (id : Uuid) (args : FinalizeArgs) (now : Time)
  | finalizeBatchItemIfOwned (id : Uuid) (args : FinalizeArgs) (now : Time)
  | failPendingUnownedUpdate (id : Uuid) (now : Time) (output : String)
  | transitionToAwaitingRestart (id serviceId : Uuid) (now : Time)
  | markOwnedInProgressAsInterruptedOnReconnect (ids : List Uuid) (serviceId : Uuid)
      (runtimeInstanceId : Option Uuid) (now : Time)
  | markAllInProgressAsInterruptedForRollout (ids : List Uuid) (now : Time)
  | markOrchestratorInprogressAsFailedOnReconnect (hostIds : List Uuid) (now : Time)
  | failUnreplayablePendingUpdate (id : Uuid) (now : Time)
  | reapOverdueUpdates (ids : List Uuid) (now : Time)
  | reapStalledPendingUpdates (ids : List Uuid) (now : Time)
  /-- The recovery hint of `finalize_post_update`. -/
  | writeRecoveryHint (id : Uuid) (hint : Option String)
  | markOutputTruncated (id : Uuid)
  deriving DecidableEq

namespace Write

def guard : Write → Row → Bool
  | promote id, r => r.id == id && r.status == .queued
  | setInprogressForOrchestrator id _, r => r.id == id && r.status == .pending
  | writePreUpdateProtectionStatus id _ _, r => r.id == id
  | failBeforeAgentDispatch id _ _ _, r => r.id == id
  | consolidateProtectionOutput id _ _, r => r.id == id
  | failDispatch id _ _, r => r.id == id
  | claimPending id _ _ _ _, r => r.id == id && r.status == .pending && unownedCondition r
  | claimInProgress id _ _ _, r =>
    r.id == id && r.status == .inProgress && r.executionOwnerServiceId == none
  | finalizeUpdateResultIfOwned id args _, r =>
    r.id == id && ownedFinalizableCondition args.serviceId args.runtimeInstanceId r
  | finalizeBatchItemIfOwned id args _, r =>
    r.id == id && ownedInProgressCondition args.serviceId args.runtimeInstanceId r
  | failPendingUnownedUpdate id _ _, r => r.id == id && r.status == .pending && unownedCondition r
  | transitionToAwaitingRestart id serviceId _, r =>
    r.id == id && r.status == .inProgress && r.executionOwnerServiceId == some serviceId
  | markOwnedInProgressAsInterruptedOnReconnect ids serviceId runtimeInstanceId _, r =>
    ids.contains r.id && orphanedCondition serviceId runtimeInstanceId r
  | markAllInProgressAsInterruptedForRollout ids _, r =>
    ids.contains r.id && r.status == .inProgress
  | markOrchestratorInprogressAsFailedOnReconnect hostIds _, r =>
    r.status == .inProgress && r.executionOwnerServiceId == none && hostIds.contains r.hostId
  | failUnreplayablePendingUpdate id _, r => r.id == id && r.status == .pending
  | reapOverdueUpdates ids _, r => ids.contains r.id && r.status == .inProgress
  | reapStalledPendingUpdates ids _, r => ids.contains r.id && r.status == .pending
  | writeRecoveryHint id _, r => r.id == id
  | markOutputTruncated id, r => r.id == id

def set : Write → Row → Row
  | promote _, r => { r with status := .pending }
  | setInprogressForOrchestrator _ now, r =>
    { r with
      status := .inProgress
      preUpdateProtectionStatus := some "in_progress"
      executionOwnerServiceId := none
      startedAt := some now }
  | writePreUpdateProtectionStatus _ status summary, r =>
    { r with preUpdateProtectionStatus := status, preUpdateProtectionSummary := summary }
  | failBeforeAgentDispatch _ now status summary, r =>
    { r with
      status := .failed
      completedAt := some now
      preUpdateProtectionStatus := some (status.getD "failed")
      preUpdateProtectionSummary :=
        some ((summary.filter (· != "")).getD preUpdateProtectionFailureSummary) }
  | consolidateProtectionOutput _ output truncated, r =>
    { r.withOutput output with outputTruncated := truncated }
  | failDispatch _ now error, r =>
    { r.withOutput ("dispatch failed: " ++ error) with status := .failed, completedAt := some now }
  | claimPending _ serviceId runtimeInstanceId interactive now, r =>
    { r.withOutput "" with
      status := .inProgress
      startedAt := some now
      executionOwnerServiceId := some serviceId
      executionOwnerInstanceId := runtimeInstanceId
      interactive := interactive
      outputTruncated := false }
  | claimInProgress _ serviceId runtimeInstanceId interactive, r =>
    { r with
      executionOwnerServiceId := some serviceId
      executionOwnerInstanceId := runtimeInstanceId
      interactive := interactive }
  | finalizeUpdateResultIfOwned _ args now, r =>
    { r.withOutput (finalOutput args.output args.error) with
      status := args.status.toStatus
      completedAt := some now
      fromVersion := args.fromVersion
      toVersion := args.toVersion }
  | finalizeBatchItemIfOwned _ args now, r =>
    { r.withOutput (finalOutput args.output args.error) with
      status := args.status.toStatus
      completedAt := some now
      toVersion := args.toVersion }
  | failPendingUnownedUpdate _ now output, r =>
    { r.withOutput output with status := .failed, completedAt := some now }
  | transitionToAwaitingRestart _ _ now, r =>
    { r with status := .awaitingRestart, awaitingRestartSince := some now }
  | markOwnedInProgressAsInterruptedOnReconnect _ _ _ now, r =>
    { r.withOutput reconnectReason with
      status := .interrupted
      completedAt := some now
      recoveryHint := some recoveryHintText
      outputTruncated := false }
  | markAllInProgressAsInterruptedForRollout _ now, r =>
    { r.withOutput rolloutReason with
      status := .interrupted
      completedAt := some now
      recoveryHint := some recoveryHintText
      outputTruncated := false }
  | markOrchestratorInprogressAsFailedOnReconnect _ now, r =>
    { r.withOutput orchestratorReason with
      status := .failed
      completedAt := some now
      outputTruncated := false
      preUpdateProtectionStatus := some "failed" }
  | failUnreplayablePendingUpdate _ now, r =>
    { r.withOutput unreplayableReason with status := .failed, completedAt := some now }
  | reapOverdueUpdates _ now, r =>
    { r.withOutput reapReason with
      status := .interrupted
      completedAt := some now
      recoveryHint := some recoveryHintText }
  | reapStalledPendingUpdates _ now, r =>
    { r.withOutput pendingReapReason with
      status := .interrupted
      completedAt := some now
      recoveryHint := some pendingRecoveryHintText }
  | writeRecoveryHint _ hi, r => { r with recoveryHint := hi }
  | markOutputTruncated _, r => { r with outputTruncated := true }

def toUpdate (w : Write) : Concurrent.Update Row := ⟨w.guard, w.set⟩

def row (w : Write) (r : Row) : Row := if w.guard r then w.set r else r

def target : Write → Option Status
  | promote _ => some .pending
  | setInprogressForOrchestrator _ _ | claimPending _ _ _ _ _ => some .inProgress
  | failBeforeAgentDispatch _ _ _ _ | failDispatch _ _ _ | failPendingUnownedUpdate _ _ _
  | markOrchestratorInprogressAsFailedOnReconnect _ _ | failUnreplayablePendingUpdate _ _ =>
    some .failed
  | finalizeUpdateResultIfOwned _ args _ | finalizeBatchItemIfOwned _ args _ =>
    some args.status.toStatus
  | transitionToAwaitingRestart _ _ _ => some .awaitingRestart
  | markOwnedInProgressAsInterruptedOnReconnect _ _ _ _
  | markAllInProgressAsInterruptedForRollout _ _ | reapOverdueUpdates _ _
  | reapStalledPendingUpdates _ _ => some .interrupted
  | writePreUpdateProtectionStatus _ _ _ | consolidateProtectionOutput _ _ _
  | claimInProgress _ _ _ _ | writeRecoveryHint _ _ | markOutputTruncated _ => none

/-- The statuses a statement that writes one applies to.  The two failures of a
dispatch are not conditional on the status. -/
def accepts : Write → Status → Bool
  | promote _, s => s == .queued
  | setInprogressForOrchestrator _ _, s | claimPending _ _ _ _ _, s
  | failPendingUnownedUpdate _ _ _, s | failUnreplayablePendingUpdate _ _, s
  | reapStalledPendingUpdates _ _, s => s == .pending
  | finalizeUpdateResultIfOwned _ _ _, s => s == .inProgress || s == .interrupted
  | finalizeBatchItemIfOwned _ _ _, s | transitionToAwaitingRestart _ _ _, s
  | markOwnedInProgressAsInterruptedOnReconnect _ _ _ _, s
  | markAllInProgressAsInterruptedForRollout _ _, s
  | markOrchestratorInprogressAsFailedOnReconnect _ _, s | reapOverdueUpdates _ _, s =>
    s == .inProgress
  | _, _ => true

theorem set_id (w : Write) (r : Row) : (w.set r).id = r.id := by cases w <;> rfl

theorem set_hostId (w : Write) (r : Row) : (w.set r).hostId = r.hostId := by cases w <;> rfl

theorem set_status (w : Write) (r : Row) : (w.set r).status = w.target.getD r.status := by
  cases w <;> rfl

variable {w : Write} {r : Row}

theorem accepts_of_guard (h : w.guard r = true) : w.accepts r.status = true := by
  cases w <;>
    simp_all [guard, accepts, ownedFinalizableCondition, ownedInProgressCondition,
      ownedStatusCondition, orphanedCondition]

@[simp] theorem row_id (w : Write) (r : Row) : (w.row r).id = r.id := by
  unfold row
  split <;> simp [set_id]

@[simp] theorem row_hostId (w : Write) (r : Row) : (w.row r).hostId = r.hostId := by
  unfold row
  split <;> simp [set_hostId]

@[simp] theorem row_softwareItemId (w : Write) (r : Row) :
    (w.row r).softwareItemId = r.softwareItemId := by
  unfold row
  split
  · cases w <;> rfl
  · rfl

/-- A statement that changes the status of a row hits the row and writes the new
status. -/
theorem of_row_status_ne (h : (w.row r).status ≠ r.status) :
    w.guard r = true ∧ w.target = some (w.row r).status := by
  unfold row at h ⊢
  split
  · rename_i hg
    rw [if_pos hg, set_status] at h
    rw [set_status]
    cases ht : w.target with
    | none => simp [ht] at h
    | some => exact ⟨hg, rfl⟩
  · rename_i hg
    simp [hg] at h

theorem unfinished_of_row (h : (w.row r).status.unfinished = true) :
    r.status.unfinished = true := by
  unfold row at h
  split at h
  · rename_i hg
    have ha := accepts_of_guard hg
    rw [set_status] at h
    cases w <;> simp_all [target, accepts] <;> first | rfl | cases h
  · exact h

/-- Only a promotion lets a row block its host that did not before. -/
theorem hostBlocking_of_row (h : (w.row r).status.hostBlocking = true) :
    r.status.hostBlocking = true ∨ w = .promote r.id ∧ r.status = .queued := by
  unfold row at h
  split at h
  · rename_i hg
    have ha := accepts_of_guard hg
    rw [set_status] at h
    cases w
    case promote id => exact .inr (by simp_all [guard])
    all_goals
      simp_all [target, accepts] <;> first | rfl | cases h
  · exact .inl h

end Write

/-- Rows that clash after an update clashed before it, unless the update promotes
one of them while the other blocks the host. -/
theorem Row.Clash.of_row {w : Write} (h : (w.row a).Clash (w.row b)) :
    a.Clash b ∨ a.hostId = b.hostId ∧
      (w = .promote a.id ∧ a.status = .queued ∧ b.status.hostBlocking = true ∨
        w = .promote b.id ∧ b.status = .queued ∧ a.status.hostBlocking = true) := by
  unfold Row.Clash at h
  rw [Write.row_id, Write.row_id, Write.row_hostId, Write.row_hostId, Write.row_softwareItemId,
    Write.row_softwareItemId] at h
  obtain h | ⟨hh, ha, hb⟩ | ⟨hh, hi, ha, hb⟩ := h
  · exact .inl (.inl h)
  · obtain ha | ⟨hwa, ha⟩ := Write.hostBlocking_of_row ha <;>
      obtain hb | ⟨hwb, hb⟩ := Write.hostBlocking_of_row hb
    · exact .inl (.inr (.inl ⟨hh, ha, hb⟩))
    · exact .inr ⟨hh, .inr ⟨hwb, hb, ha⟩⟩
    · exact .inr ⟨hh, .inl ⟨hwa, ha, hb⟩⟩
    · exact .inl (.inl (Write.promote.inj (hwa.symm.trans hwb)))
  · exact .inl (.inr (.inr ⟨hh, hi, Write.unfinished_of_row ha, Write.unfinished_of_row hb⟩))

end Uptrakit.Update
