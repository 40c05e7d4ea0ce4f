import Uptrakit.Concurrent.Pool
import Uptrakit.Data.StoredTime
import Uptrakit.Update.History

/-!
# Claims of scheduled tasks

The controllers share the table `scheduled_tasks`
(`crates/core/scheduler-runtime/src/{claim,scheduler}.rs`).  In a poll cycle a controller reads
the tasks that are due, claims them one after the other and executes those it has claimed; an
execution ends with `release_claim`, which sets the next run time.

`find_due_tasks` asks for tasks that are enabled, unlocked and due.  `try_claim` asks only for
the lock.  So a controller that has read a task as due claims it also after another controller
has executed and rescheduled it (`claimed_when_not_due`).  A claim finds its task enabled and due
if no task is rescheduled or disabled while a poll cycle still has to try it and no task is read as
due because its text comes before that of an earlier time, and it is the only one until the next run
time is set anew if no claim is taken away (`claims_only_due_tasks`).

Every statement runs outside of a transaction, so the model has one step for each.  Poll cycles
of one controller may overlap in the model: that a cycle waits for its executions at its end only
takes runs away.
-/

namespace Uptrakit.Scheduler

open Concurrent Data List
open Update (Uuid)

/-! ## Tasks -/

inductive ScheduledTaskType
  | authCleanup
  | staleLeaseCleanup
  | caRotationCheck
  | fetchReleases
  | detectVersion
  | serviceCertCheck
  | crlRenewal
  | auditLogCleanup
  | discoverSoftware

namespace ScheduledTaskType

def iter : List ScheduledTaskType :=
  [authCleanup, staleLeaseCleanup, caRotationCheck, fetchReleases, detectVersion, serviceCertCheck,
    crlRenewal, auditLogCleanup, discoverSoftware]

def intoValue : ScheduledTaskType → String
  | authCleanup => "auth_cleanup"
  | staleLeaseCleanup => "stale_lease_cleanup"
  | caRotationCheck => "ca_rotation_check"
  | fetchReleases => "fetch_releases"
  | detectVersion => "detect_version"
  | serviceCertCheck => "service_cert_check"
  | crlRenewal => "crl_renewal"
  | auditLogCleanup => "audit_log_cleanup"
  | discoverSoftware => "discover_software"

def ofValue (value : String) : Option ScheduledTaskType := iter.find? (·.intoValue == value)

def isInternal : ScheduledTaskType → Bool
  | crlRenewal | caRotationCheck | serviceCertCheck => true
  | _ => false

end ScheduledTaskType

/-- A row of `scheduled_tasks`.  Times are in nanoseconds.  The type is a text: a newer controller
may have written one that this one does not know. -/
structure ScheduledTask where
  id : Uuid
  tenantId : Uuid
  taskType : String
  intervalSeconds : Int
  jitterSeconds : Int
  enabled : Bool
  lastRunAt : Option Int
  nextRunAt : Int
  lockedBy : Option Uuid
  lockedAt : Option Int
  lastError : Option String
  runCount : Int
  updatedAt : Int
  deriving DecidableEq

abbrev ScheduledTasks := Table (Apart fun a b : ScheduledTask => a.id = b.id)

/-- An update of the table; none changes an id. -/
structure Statement extends Concurrent.Update ScheduledTask where
  /-- The statement sets the next run time. -/
  reschedules : Bool := false
  id_set : ∀ task, (set task).id = task.id
  nextRunAt_set : reschedules = false → ∀ task, (set task).nextRunAt = task.nextRunAt

namespace Statement

theorem id_row (u : Statement) (task : ScheduledTask) : (u.row task).id = task.id := by
  unfold Concurrent.Update.row
  split
  · exact u.id_set task
  · rfl

def exec (u : Statement) (tasks : ScheduledTasks) : ScheduledTasks :=
  tasks.rewrite u.row fun a b h => by rwa [u.id_row, u.id_row] at h

def found (u : Statement) (tasks : ScheduledTasks) : List ScheduledTask := tasks.rows.filter u.guard

end Statement

/-! ## Statements -/

def staleClaimSeconds : Int := 600

section Statements

variable (db : Backend)

def tryClaim (taskId controllerId : Uuid) (now : Int) : Statement where
  guard task := task.id == taskId && task.lockedBy.isNone
  set task := { task with lockedBy := some controllerId, lockedAt := some (db.stored now) }
  id_set _ := rfl
  nextRunAt_set _ _ := rfl

def releaseClaim (taskId controllerId : Uuid) (nextRunAt now : Int) (result : Except String Unit) :
    Statement where
  guard task := task.id == taskId && task.lockedBy == some controllerId
  set task := { task with
    lockedBy := none
    lockedAt := none
    nextRunAt := db.stored nextRunAt
    updatedAt := db.stored now
    lastError := match result with
      | .ok () => none
      | .error e => some e
    lastRunAt := if result.isOk then some (db.stored now) else task.lastRunAt
    runCount := if result.isOk then task.runCount + 1 else task.runCount }
  reschedules := true
  id_set _ := rfl
  nextRunAt_set := nofun

def recoverStaleClaims (now : Int) : Statement where
  guard task :=
    task.lockedAt.any fun lockedAt => db.lt lockedAt (now - staleClaimSeconds * nanosPerSecond)
  set task := { task with
    lockedBy := none
    lockedAt := none
    lastError := some "released: stale claim (controller may have crashed)" }
  id_set _ := rfl
  nextRunAt_set _ _ := rfl

def refreshClaims (controllerId : Uuid) (liveIds : List Uuid) (now : Int) : Statement where
  guard task := task.lockedBy == some controllerId && liveIds.contains task.id
  set task := { task with lockedAt := some (db.stored now) }
  id_set _ := rfl
  nextRunAt_set _ _ := rfl

def releaseAllClaims (controllerId : Uuid) : Statement where
  guard task := task.lockedBy == some controllerId
  set task := { task with lockedBy := none, lockedAt := none }
  id_set _ := rfl
  nextRunAt_set _ _ := rfl

def findDueTasks (tasks : ScheduledTasks) (now : Int) : List ScheduledTask :=
  tasks.rows.filter fun task =>
    (ScheduledTaskType.iter.map (·.intoValue)).contains task.taskType && task.enabled &&
      task.lockedBy.isNone && db.le task.nextRunAt now

end Statements

/-- `draw` is the random number. -/
def computeNextRunAt (now : Int) (intervalSeconds jitterSeconds : Int) (draw : Nat) : Int :=
  let jitter := if jitterSeconds > 0 then (draw : Int) % (jitterSeconds + 1) else 0
  now + (intervalSeconds + jitter) * nanosPerSecond

structure UpdateScheduledTaskRequest where
  intervalSeconds : Option Int := none
  jitterSeconds : Option Int := none
  enabled : Option Bool := none
  deriving DecidableEq

namespace UpdateScheduledTaskRequest

/-- Otherwise the request fails with `InvalidInterval`. -/
def valid (request : UpdateScheduledTaskRequest) : Bool :=
  request.intervalSeconds.all (fun interval => decide (0 < interval)) &&
    request.jitterSeconds.all fun jitter => decide (0 ≤ jitter)

def reschedules (request : UpdateScheduledTaskRequest) : Bool :=
  request.intervalSeconds.isSome || request.jitterSeconds.isSome

def postpones (request : UpdateScheduledTaskRequest) : Bool :=
  request.reschedules || request.enabled == some false

end UpdateScheduledTaskRequest

/-- `update_scheduled_task_in_tx`, of which the transaction is serialized with all others. -/
def updateScheduledTask (db : Backend) (tenantId taskId : Uuid)
    (request : UpdateScheduledTaskRequest) (now : Int) (draw : Nat) : Statement where
  guard task := task.id == taskId && task.tenantId == tenantId && request.valid
  set task :=
    let interval := request.intervalSeconds.getD task.intervalSeconds
    let jitter := request.jitterSeconds.getD task.jitterSeconds
    { task with
      intervalSeconds := interval
      jitterSeconds := jitter
      nextRunAt :=
        if request.reschedules then db.stored (computeNextRunAt now interval jitter draw)
        else task.nextRunAt
      enabled := request.enabled.getD task.enabled
      updatedAt := db.stored now }
  reschedules := request.reschedules
  id_set _ := rfl
  nextRunAt_set h _ := if_neg (Bool.eq_false_iff.1 h)

def triggerScheduledTask (db : Backend) (tenantId taskId : Uuid) (now : Int) : Statement where
  guard task := task.id == taskId && task.tenantId == tenantId
  set task := { task with nextRunAt := db.stored now, updatedAt := db.stored now }
  reschedules := true
  id_set _ := rfl
  nextRunAt_set := nofun

/-! ## Steps -/

/-- A claim that has succeeded: the row as the statement has found it, when, and how many times the
next run time of the task had been set. -/
structure Start where
  controllerId : Uuid
  task : ScheduledTask
  time : Int
  window : Nat
  deriving DecidableEq

/-- The table and the clock.  The claims that have succeeded, and how many times the next run time
of a task was set, are kept for the statements below; no step reads them. -/
structure Shared where
  tasks : ScheduledTasks
  clock : Int
  started : List Start := []
  windows : Uuid → Nat := fun _ => 0

def Shared.wait (s : Shared) (elapsed : Nat) : Shared := { s with clock := s.clock + elapsed }

def Shared.exec (s : Shared) (u : Statement) : Shared :=
  { s with
    tasks := u.exec s.tasks
    windows := fun taskId =>
      if u.reschedules && (u.found s.tasks).any (·.id == taskId) then s.windows taskId + 1
      else s.windows taskId }

def Shared.init (tasks : ScheduledTasks) (clock : Int) : Shared where
  tasks := tasks
  clock := clock

inductive Operation
  | pollCycle (controllerId : Uuid)
  | heartbeat (controllerId : Uuid)
  /-- `run` and `release_and_stop_if_heartbeat_dead` release the claims when they stop. -/
  | stop (controllerId : Uuid)
  | update (tenantId taskId : Uuid) (request : UpdateScheduledTaskRequest)
  | trigger (tenantId taskId : Uuid)

inductive Frame
  | recover (controllerId : Uuid)
  | find (controllerId : Uuid)
  | claim (controllerId : Uuid) (dueTasks : List ScheduledTask)
  | execute (controllerId : Uuid) (task : ScheduledTask)
  | release (controllerId taskId : Uuid) (nextRunAt : Int) (result : Except String Unit)
  | heartbeat (controllerId : Uuid)
  | stop (controllerId : Uuid)
  | update (tenantId taskId : Uuid) (request : UpdateScheduledTaskRequest)
  | trigger (tenantId taskId : Uuid)

/-- How an execution ends.  A timeout is a result that is an error. -/
inductive Execution
  | finished (result : Except String Unit)
  | aborted
  | panicked

structure Choice where
  /-- The time that passes before the step. -/
  elapsed : Nat := 0
  /-- How long before the statement is executed the controller has read the clock. -/
  lag : Nat := 0
  /-- The statement fails. -/
  fails : Bool := false
  /-- `drain` or `abort` is cancelled. -/
  stopping : Bool := false
  /-- `should_yield_external`. -/
  yielding : Bool := false
  execution : Execution := .finished (.ok ())
  draw : Nat := 0
  liveIds : List Uuid := []

def Operation.enter : Operation → Frame
  | pollCycle controllerId => .recover controllerId
  | heartbeat controllerId => .heartbeat controllerId
  | stop controllerId => .stop controllerId
  | update tenantId taskId request => .update tenantId taskId request
  | trigger tenantId taskId => .trigger tenantId taskId

section Steps

-- The task types for which a controller has an executor.
variable (db : Backend) (executors : Uuid → ScheduledTaskType → Bool)

def skips (choice : Choice) (controllerId : Uuid) (task : ScheduledTask) : Bool :=
  match ScheduledTaskType.ofValue task.taskType with
  | none => true
  | some taskType =>
    choice.yielding && !taskType.isInternal || !executors controllerId taskType

/-- One task of the loop of `poll_cycle`. -/
def claimNext (choice : Choice) (s : Shared) (controllerId : Uuid) (task : ScheduledTask)
    (rest : List ScheduledTask) : Outcome Shared Frame :=
  if choice.stopping then ⟨s, [], []⟩
  else if skips executors choice controllerId task || choice.fails then
    ⟨s, [.claim controllerId rest], []⟩
  else
    let statement := tryClaim db task.id controllerId (s.clock - choice.lag)
    let found := statement.found s.tasks
    if found.length = 1 then
      ⟨{ s.exec statement with
          started := s.started ++
            found.map fun row => ⟨controllerId, row, s.clock, s.windows row.id⟩ },
        [.claim controllerId rest], [.execute controllerId task]⟩
    else ⟨s.exec statement, [.claim controllerId rest], []⟩

def finish (choice : Choice) (s : Shared) (controllerId : Uuid) (task : ScheduledTask) :
    List Frame :=
  let nextRunAt :=
    computeNextRunAt s.clock task.intervalSeconds task.jitterSeconds choice.draw
  match choice.execution with
  | .finished result => [.release controllerId task.id nextRunAt result]
  | .aborted =>
    [.release controllerId task.id nextRunAt (.error "scheduler shutdown during execution")]
  | .panicked => []

def lastly (choice : Choice) (s : Shared) (statement : Statement) : Outcome Shared Frame :=
  ⟨if choice.fails then s else s.exec statement, [], []⟩

def execute (choice : Choice) (s : Shared) : Frame → Outcome Shared Frame
  | .recover controllerId =>
    ⟨if choice.fails then s else s.exec (recoverStaleClaims db (s.clock - choice.lag)),
      [.find controllerId], []⟩
  | .find controllerId =>
    let dueTasks := findDueTasks db s.tasks (s.clock - choice.lag)
    ⟨s, if choice.fails then [] else [.claim controllerId dueTasks], []⟩
  | .claim _ [] => ⟨s, [], []⟩
  | .claim controllerId (task :: rest) => claimNext db executors choice s controllerId task rest
  | .execute controllerId task => ⟨s, finish choice s controllerId task, []⟩
  | .release controllerId taskId nextRunAt result =>
    lastly choice s (releaseClaim db taskId controllerId nextRunAt (s.clock - choice.lag) result)
  | .heartbeat controllerId =>
    lastly choice s (refreshClaims db controllerId choice.liveIds (s.clock - choice.lag))
  | .stop controllerId => lastly choice s (releaseAllClaims controllerId)
  | .update tenantId taskId request =>
    lastly choice s
      (updateScheduledTask db tenantId taskId request (s.clock - choice.lag) choice.draw)
  | .trigger tenantId taskId =>
    lastly choice s (triggerScheduledTask db tenantId taskId (s.clock - choice.lag))

def step (choice : Choice) (s : Shared) (f : Frame) : Outcome Shared Frame :=
  execute db executors choice (s.wait choice.elapsed) f

def scheduler : Program Operation Shared Frame Choice where
  enter := Operation.enter
  step := step db executors

end Steps

/-- The tasks a poll cycle has read as due and has not yet tried to claim. -/
def Frame.awaited : Frame → List Uuid
  | claim _ dueTasks => dueTasks.map (·.id)
  | _ => []

def Frame.postpones (taskId : Uuid) : Frame → Bool
  | release _ released _ _ => released == taskId
  | update _ updated request => updated == taskId && request.postpones
  | _ => false

/-- The step reads no task as due before its time: no later run time comes before the time it
compares with. -/
def Frame.readsDue (db : Backend) (tasks : ScheduledTasks) (now : Int) : Frame → Bool
  | find _ => tasks.rows.all fun row =>
      decide (row.nextRunAt ≤ now) || decide (db.next now ≤ row.nextRunAt)
  | _ => true

def Frame.takesClaim (db : Backend) (tasks : ScheduledTasks) (now : Int) : Frame → Bool
  | recover _ => tasks.rows.any (recoverStaleClaims db now).guard
  | stop controllerId => tasks.rows.any (releaseAllClaims controllerId).guard
  | _ => false

/-- The move reschedules or disables no task that a poll cycle has read as due and has not yet tried
to claim, and reads no task as due before its time. -/
def keepsAwaited (db : Backend) (c : Config Shared Frame) : Move Operation Choice → Bool
  | .start _ => true
  | .run i choice => (c.top i).all fun f =>
      (c.frames.all fun g => g.awaited.all fun taskId => !f.postpones taskId) &&
        f.readsDue db c.shared.tasks (c.shared.clock + choice.elapsed - choice.lag)

def keepsClaims (db : Backend) (c : Config Shared Frame) : Move Operation Choice → Bool
  | .start _ => true
  | .run i choice => choice.fails || (c.top i).all fun f =>
      !f.takesClaim db c.shared.tasks (c.shared.clock + choice.elapsed - choice.lag)

/-! ## Due tasks -/

/-- The task may be executed. -/
def ScheduledTask.Due (task : ScheduledTask) (now : Int) : Prop :=
  task.enabled = true ∧ task.nextRunAt ≤ now

instance (task : ScheduledTask) (now : Int) : Decidable (task.Due now) :=
  inferInstanceAs (Decidable (_ ∧ _))

/-- The row with the id, if there is one, is due. -/
def Shared.TaskDue (s : Shared) (taskId : Uuid) : Prop :=
  ∀ row ∈ s.tasks.rows, row.id = taskId → row.Due s.clock

variable {s : Shared} {taskId : Uuid} {u : Statement} {choice : Choice}

theorem Shared.TaskDue.wait (h : s.TaskDue taskId) (elapsed : Nat) :
    (s.wait elapsed).TaskDue taskId := by
  intro row hr hid
  obtain ⟨he, hd⟩ := h row hr hid
  refine ⟨he, hd.trans ?_⟩
  show s.clock ≤ s.clock + (elapsed : Int)
  omega

/-- A statement that leaves due tasks due. -/
theorem Shared.TaskDue.exec (h : s.TaskDue taskId)
    (hs : ∀ row, row.id = taskId → u.guard row = true → row.Due s.clock →
      (u.set row).Due s.clock) : (s.exec u).TaskDue taskId := by
  intro row hr hid
  obtain ⟨before, hb, rfl⟩ := mem_map.1 hr
  rw [u.id_row] at hid
  have hd := h before hb hid
  unfold Concurrent.Update.row
  split
  · next hg => exact hs before hid hg hd
  · exact hd

theorem Shared.TaskDue.lastly (h : s.TaskDue taskId)
    (hs : ∀ row, row.id = taskId → u.guard row = true → row.Due s.clock →
      (u.set row).Due s.clock) : (lastly choice s u).shared.TaskDue taskId := by
  unfold Scheduler.lastly
  split
  · exact h
  · exact h.exec hs

/-! ## Steps keep due tasks due -/

section Invariant

variable {db : Backend} {executors : Uuid → ScheduledTaskType → Bool} {choice : Choice} {s : Shared}
  {f : Frame}

variable {controllerId : Uuid} {task : ScheduledTask} {rest : List ScheduledTask} {start : Start}

theorem taskDue_claimNext (h : s.TaskDue taskId) :
    (claimNext db executors choice s controllerId task rest).shared.TaskDue taskId := by
  fun_cases claimNext db executors choice s controllerId task rest with
  | case1 | case2 => exact h
  | case3 | case4 => exact h.exec fun _ _ _ hd => hd

/-- A step that does not reschedule or disable the task. -/
theorem taskDue_execute (h : s.TaskDue taskId) (hf : f.postpones taskId = false) :
    (execute db executors choice s f).shared.TaskDue taskId := by
  fun_cases execute db executors choice s f with
  | case1 =>
    split
    · exact h
    · exact h.exec fun _ _ _ hd => hd
  | case2 | case3 | case5 => exact h
  | case4 => exact taskDue_claimNext h
  | case6 _ released =>
    refine h.lastly fun row hid hg _ => ?_
    -- The statement is about another task.
    have hne : released ≠ taskId := by simpa [Frame.postpones] using hf
    have hre : row.id = released := beq_iff_eq.1 (Bool.and_eq_true_iff.1 hg).1
    exact absurd (hre.symm.trans hid) hne
  | case7 | case8 => exact h.lastly fun _ _ _ hd => hd
  | case9 _ updated request =>
    refine h.lastly fun row hid hg hd => ?_
    simp only [updateScheduledTask, Bool.and_eq_true, beq_iff_eq] at hg
    obtain rfl : updated = taskId := hg.1.1.symm.trans hid
    have hk : request.postpones = false := by simpa [Frame.postpones] using hf
    obtain ⟨hr, he⟩ := Bool.or_eq_false_iff.1 hk
    refine ⟨?_, ?_⟩
    · show request.enabled.getD row.enabled = true
      cases hreq : request.enabled with
      | none => exact hd.1
      | some enabled =>
        cases enabled with
        | true => rfl
        | false => simp [hreq] at he
    · show (if request.reschedules then _ else row.nextRunAt) ≤ s.clock
      rw [hr]
      exact hd.2
  | case10 =>
    refine h.lastly fun row _ _ hd => ⟨hd.1, ?_⟩
    have hs := db.stored_le (s.clock - choice.lag)
    show db.stored (s.clock - choice.lag) ≤ s.clock
    omega

/-- What a poll cycle awaits after a step it has awaited before, or has just read as due. -/
theorem mem_awaited_execute {g} (hf : f.readsDue db s.tasks (s.clock - choice.lag) = true)
    (hg : g ∈ (execute db executors choice s f).frames ++ (execute db executors choice s f).spawned)
    (hid : taskId ∈ g.awaited) :
    taskId ∈ f.awaited ∨ (execute db executors choice s f).shared.TaskDue taskId := by
  revert hg
  fun_cases execute db executors choice s f with
  | case1 =>
    intro hg
    cases mem_singleton.1 hg
    cases hid
  | case2 =>
    split
    · exact nofun
    · intro hg
      cases mem_singleton.1 hg
      obtain ⟨task, hfo, rfl⟩ := mem_map.1 hid
      obtain ⟨ht, hd⟩ := mem_filter.1 hfo
      simp only [Bool.and_eq_true] at hd
      obtain ⟨⟨⟨-, he⟩, -⟩, hd⟩ := hd
      refine .inr fun row hro hid => ?_
      obtain rfl := s.tasks.valid.eq_of_clash (fun _ _ => Eq.symm) hro ht hid
      refine ⟨he, show row.nextRunAt ≤ s.clock from ?_⟩
      have hr := all_eq_true.1 hf row hro
      simp only [Bool.or_eq_true, decide_eq_true_eq] at hr
      by_contra hl
      have hn := (Backend.le_iff_of_le (by omega)).1 hd
      omega
  | case4 controllerId task rest =>
    fun_cases claimNext db executors choice s controllerId task rest with
    | case1 => nofun
    | case3 =>
      simp only [cons_append, nil_append, mem_cons, not_mem_nil, or_false]
      rintro (rfl | rfl)
      · exact .inl (mem_cons_of_mem _ hid)
      · cases hid
    | case2 | case4 =>
      intro hg
      cases mem_singleton.1 hg
      exact .inl (mem_cons_of_mem _ hid)
  | case5 controllerId task =>
    fun_cases finish choice s controllerId task with
    | case3 => exact nofun
    | _ =>
      intro hg
      cases mem_singleton.1 hg
      cases hid
  | _ => exact nofun

/-! ## Windows -/

/-- No two claims are in one window, and the task of a claim is locked until its window ends. -/
structure Shared.Windowed (s : Shared) : Prop where
  apart : s.started.Pairwise fun a b => ¬ (a.task.id = b.task.id ∧ a.window = b.window)
  window_le : ∀ start ∈ s.started, start.window ≤ s.windows start.task.id
  locked : ∀ start ∈ s.started, start.window = s.windows start.task.id →
    ∀ row ∈ s.tasks.rows, row.id = start.task.id → row.lockedBy.isSome = true

theorem windows_le_exec (s : Shared) (u : Statement) (taskId : Uuid) :
    s.windows taskId ≤ (s.exec u).windows taskId := by
  unfold Shared.exec
  dsimp only
  split <;> omega

/-- A statement keeps the locks of the rows for which it does not start a new window. -/
theorem Shared.Windowed.exec (h : s.Windowed) {u : Statement}
    (hse : ∀ row ∈ s.tasks.rows, u.guard row = true → u.reschedules = false →
      row.lockedBy.isSome = true → (u.set row).lockedBy.isSome = true) : (s.exec u).Windowed where
  apart := h.apart
  window_le start hs := (h.window_le start hs).trans (windows_le_exec s u _)
  locked := by
    intro start hs hw row hro hid
    obtain ⟨before, hb, rfl⟩ := mem_map.1 hro
    rw [u.id_row] at hid
    have hle := h.window_le start hs
    have hgr := windows_le_exec s u start.task.id
    have hl := h.locked start hs (by omega) before hb hid
    unfold Concurrent.Update.row
    split
    · next hg =>
      refine hse before hb hg ?_ hl
      by_contra hr
      have hf : (u.found s.tasks).any (·.id == start.task.id) = true :=
        any_eq_true.2 ⟨before, mem_filter.2 ⟨hb, hg⟩, beq_iff_eq.2 hid⟩
      have hn : (s.exec u).windows start.task.id = s.windows start.task.id + 1 := by
        simp only [Shared.exec, hf, Bool.eq_true_of_not_eq_false hr, Bool.and_self, if_true]
      omega
    · exact hl

theorem Shared.Windowed.lastly (h : s.Windowed) {u : Statement}
    (hs : choice.fails = false → ∀ row ∈ s.tasks.rows, u.guard row = true →
      u.reschedules = false → row.lockedBy.isSome = true → (u.set row).lockedBy.isSome = true) :
    (lastly choice s u).shared.Windowed := by
  unfold Scheduler.lastly
  split
  · exact h
  · next hf => exact h.exec (hs (by simpa using hf))

theorem windowed_claimNext (h : s.Windowed) :
    (claimNext db executors choice s controllerId task rest).shared.Windowed := by
  fun_cases claimNext db executors choice s controllerId task rest with
  | case1 | case2 => exact h
  | case4 => exact h.exec fun _ _ _ _ _ => rfl
  | case3 _ _ u found ho =>
    have he : (s.exec u).Windowed := h.exec fun _ _ _ _ _ => rfl
    have hf {row} (hr : row ∈ found) :
        row ∈ s.tasks.rows ∧ row.id = task.id ∧ row.lockedBy = none := by
      simpa [found, u, Statement.found, tryClaim] using hr
    have hw : (s.exec u).windows = s.windows := by
      simp [Shared.exec, u, tryClaim]
    refine ⟨pairwise_append.2 ⟨h.apart, ?_, ?_⟩, ?_, ?_⟩
    · obtain ⟨row, hr⟩ := length_eq_one_iff.1 ho
      rw [hr]
      exact pairwise_singleton _ _
    · -- The row was not locked, so its window has had no claim.
      intro a ha b hb hsa
      obtain ⟨row, hr, rfl⟩ := mem_map.1 hb
      obtain ⟨hr, -, hfr⟩ := hf hr
      have hl := h.locked a ha (hsa.1 ▸ hsa.2) row hr hsa.1.symm
      simp [hfr] at hl
    · intro start hs
      rcases mem_append.1 hs with hs | hs
      · exact he.window_le start hs
      · obtain ⟨row, hr, rfl⟩ := mem_map.1 hs
        exact (congrFun hw row.id).ge
    · intro start hs hwi row hr hid
      rcases mem_append.1 hs with hs | hs
      · exact he.locked start hs hwi row hr hid
      · obtain ⟨claimed, hc, rfl⟩ := mem_map.1 hs
        obtain ⟨before, hbe, rfl⟩ := mem_map.1 hr
        rw [u.id_row] at hid
        have hid : before.id = task.id := hid.trans (hf hc).2.1
        unfold Concurrent.Update.row
        split
        · rfl
        · next hg => simpa [u, tryClaim, hid, Option.isSome_iff_ne_none] using hg

/-- A step that takes no claim away. -/
theorem windowed_execute (h : s.Windowed)
    (hf : choice.fails = false → f.takesClaim db s.tasks (s.clock - choice.lag) = false) :
    (execute db executors choice s f).shared.Windowed := by
  fun_cases execute db executors choice s f with
  | case1 =>
    split
    · exact h
    · next hfa =>
      refine h.exec fun row hro hg _ _ => ?_
      exact absurd hg (any_eq_false.1 (hf (by simpa using hfa)) row hro)
  | case2 | case3 | case5 => exact h
  | case4 => exact windowed_claimNext h
  | case6 => exact h.lastly fun _ _ _ _ hr => nomatch hr
  | case7 => exact h.lastly fun _ _ _ _ _ hl => hl
  | case8 =>
    refine h.lastly fun hfa row hro hg _ _ => ?_
    exact absurd hg (any_eq_false.1 (hf hfa) row hro)
  | case9 => exact h.lastly fun _ _ _ _ _ hl => hl
  | case10 => exact h.lastly fun _ _ _ _ hr => nomatch hr

theorem started_lastly (u) : (lastly choice s u).shared.started = s.started := by
  unfold lastly
  split
  · rfl
  · rfl

theorem mem_started_execute (h : start ∈ (execute db executors choice s f).shared.started) :
    start ∈ s.started ∨
      start.task ∈ s.tasks.rows ∧ start.task.id ∈ f.awaited ∧ start.time = s.clock := by
  revert h
  fun_cases execute db executors choice s f with
  | case1 => split <;> exact .inl
  | case2 | case3 | case5 => exact .inl
  | case4 controllerId task rest =>
    fun_cases claimNext db executors choice s controllerId task rest with
    | case3 =>
      intro h
      rcases mem_append.1 h with h | h
      · exact .inl h
      · obtain ⟨row, hr, rfl⟩ := mem_map.1 h
        obtain ⟨hr, hg⟩ := mem_filter.1 hr
        have hid : row.id = task.id := beq_iff_eq.1 (Bool.and_eq_true_iff.1 hg).1
        exact .inr ⟨hr, hid ▸ mem_cons_self, rfl⟩
    | _ => exact .inl
  | _ => exact fun h => .inl (started_lastly _ ▸ h)

end Invariant

/-! ## Runs -/

/-- What a poll cycle has read as due is due until it is tried. -/
def AwaitedDue (s : Shared) (f : Frame) : Prop := ∀ taskId ∈ f.awaited, s.TaskDue taskId

variable {db : Backend} {executors : Uuid → ScheduledTaskType → Bool}

theorem keepsAwaited_run {c : Config Shared Frame} {i : Nat} {f : Frame} {choice : Choice}
    (ht : c.top i = some f) (hok : keepsAwaited db c (.run i choice) = true) :
    (∀ g ∈ c.frames, ∀ taskId ∈ g.awaited, f.postpones taskId = false) ∧
      f.readsDue db c.shared.tasks (c.shared.clock + choice.elapsed - choice.lag) = true := by
  simpa [keepsAwaited, ht] using hok

/-- A move keeps what poll cycles have read as due. -/
theorem awaitedDue_move : ∀ (c : Config Shared Frame) (m : Move Operation Choice),
    (∀ f ∈ c.frames, AwaitedDue c.shared f) → keepsAwaited db c m = true →
    ∀ f ∈ ((scheduler db executors).move c m).frames,
      AwaitedDue ((scheduler db executors).move c m).shared f := by
  have hk : ∀ (c : Config Shared Frame) i choice f g taskId,
      (∀ g ∈ c.frames, AwaitedDue c.shared g) → c.top i = some f →
      keepsAwaited db c (.run i choice) = true → g ∈ c.frames → taskId ∈ g.awaited →
      (step db executors choice c.shared f).shared.TaskDue taskId := by
    intro c i choice f g taskId h ht hok hg hid
    refine taskDue_execute ((h g hg taskId hid).wait choice.elapsed) ?_
    exact (keepsAwaited_run ht hok).1 g hg taskId hid
  refine Program.frames_invariant ?_ ?_ ?_
  · intro s operation taskId hid
    cases operation <;> cases hid
  · intro c i choice f h ht hok g hg taskId hid
    rcases mem_awaited_execute (keepsAwaited_run ht hok).2 hg hid with hb | hd
    · exact hk c i choice f f taskId h ht hok (Config.mem_frames_of_top ht) hb
    · exact hd
  · intro c i choice f h ht hok g hg _ taskId hid
    obtain ⟨_, hi⟩ := Config.exists_of_top ht
    have hm : g ∈ c.frames := (Config.frames_perm hi).mem_iff.2 (mem_cons_of_mem _ hg)
    exact hk c i choice f g taskId h ht hok hm hid

/-- A move adds only claims that have found their tasks due. -/
theorem due_move {c : Config Shared Frame} {m : Move Operation Choice}
    (ha : ∀ f ∈ c.frames, AwaitedDue c.shared f)
    (hst : ∀ start ∈ c.shared.started, start.task.Due start.time) :
    ∀ start ∈ ((scheduler db executors).move c m).shared.started,
      start.task.Due start.time := by
  refine Program.shared_move (p := fun s : Shared => ∀ start ∈ s.started, start.task.Due start.time)
    hst fun _ choice f _ hto start hs => ?_
  rcases mem_started_execute hs with hb | ⟨hr, hid, ht⟩
  · exact hst start hb
  · rw [ht]
    have hd := ha f (Config.mem_frames_of_top hto) start.task.id hid
    exact hd.wait choice.elapsed start.task hr rfl

theorem windowed_move {c : Config Shared Frame} {m : Move Operation Choice}
    (h : c.shared.Windowed) (hok : keepsClaims db c m = true) :
    ((scheduler db executors).move c m).shared.Windowed := by
  refine Program.shared_move h fun i choice f hm ht => ?_
  subst hm
  refine windowed_execute (s := c.shared.wait choice.elapsed)
    ⟨h.apart, h.window_le, h.locked⟩ fun hf => ?_
  simpa [keepsClaims, ht, hf, Shared.wait] using hok

/-- In every run in which no task is rescheduled or disabled while a poll cycle still has to try
it, and none is read as due before its time, every claim that succeeds finds its task enabled and
due.  If no claim is taken away, no two of them find a task with the same setting of its next run
time. -/
theorem claims_only_due_tasks (tasks : ScheduledTasks) (clock : Int)
    {moves : List (Move Operation Choice)}
    (hm : (scheduler db executors).Meets (fun c m => keepsAwaited db c m = true)
      ⟨.init tasks clock, []⟩ moves) :
    let started := ((scheduler db executors).run ⟨.init tasks clock, []⟩ moves).shared.started
    (∀ start ∈ started, start.task.enabled = true ∧ start.task.nextRunAt ≤ start.time) ∧
      ((scheduler db executors).Meets (fun c m => keepsClaims db c m = true)
          ⟨.init tasks clock, []⟩ moves →
        started.Pairwise fun a b => ¬ (a.task.id = b.task.id ∧ a.window = b.window)) := by
  let inv (c : Config Shared Frame) : Prop :=
    (∀ f ∈ c.frames, AwaitedDue c.shared f) ∧
      ∀ start ∈ c.shared.started, start.task.Due start.time
  have hmo : ∀ c m, inv c → keepsAwaited db c m = true →
      inv ((scheduler db executors).move c m) := by
    intro c m h hok
    exact ⟨awaitedDue_move c m h.1 hok, due_move h.1 h.2⟩
  have hi : inv ⟨.init tasks clock, []⟩ := by
    refine ⟨?_, ?_⟩
    · rintro f ⟨⟩
    · rintro start ⟨⟩
  refine ⟨(Program.run_invariant hmo hi hm).2, fun hc => ?_⟩
  let windowed (c : Config Shared Frame) : Prop := c.shared.Windowed
  have hn : windowed ⟨.init tasks clock, []⟩ := by
    refine ⟨.nil, ?_, ?_⟩
    · rintro start ⟨⟩
    · rintro start ⟨⟩
  have hk : ∀ c m, windowed c → keepsClaims db c m = true →
      windowed ((scheduler db executors).move c m) := fun _ _ => windowed_move
  exact (Program.run_invariant hk hn hc).apart

/-! ## Two controllers -/

def authCleanupTask : ScheduledTask where
  id := 1
  tenantId := 1
  taskType := "auth_cleanup"
  intervalSeconds := 300
  jitterSeconds := 0
  enabled := true
  lastRunAt := none
  nextRunAt := 50000000000
  lockedBy := none
  lockedAt := none
  lastError := none
  runCount := 0
  updatedAt := 0

def oneTask : ScheduledTasks := ⟨[authCleanupTask], by decide⟩

/-- Both controllers have read the task as due before the first one claims it. -/
def claimRace : List (Move Operation Choice) :=
  [.start (.pollCycle 7), .start (.pollCycle 8), .run 0 {}, .run 0 {}, .run 1 {}, .run 1 {},
    .run 0 {}, .run 2 {}, .run 2 {}, .run 1 {}]

/-- The second controller claims the task 100 s after the epoch although the first one has executed
it, and its next run time is 400 s. -/
theorem claimed_when_not_due :
    let run db := (scheduler db fun _ _ => true).run ⟨.init oneTask 100000000000, []⟩ claimRace
    let started := (run .sqlite).shared.started
    started =
        [⟨7, authCleanupTask, 100000000000, 0⟩,
          ⟨8, { authCleanupTask with
            nextRunAt := 400000000000, lastRunAt := some 100000000000, runCount := 1,
            updatedAt := 100000000000 }, 100000000000, 1⟩] ∧
      (run .postgres).shared.started = started := by
  decide

/-- The second controller reads the tasks after the first one has rescheduled the task, and again
when it is due. -/
def claimTurns : List (Move Operation Choice) :=
  [.start (.pollCycle 7), .start (.pollCycle 8), .run 0 {}, .run 0 {}, .run 0 {}, .run 2 {},
    .run 2 {}, .run 1 {}, .run 1 {}, .start (.pollCycle 8), .run 3 { elapsed := 300000000000 },
    .run 3 {}, .run 3 {}]

theorem claims_only_due_tasks_turns :
    let c := (scheduler .sqlite fun _ _ => true).run ⟨.init oneTask 100000000000, []⟩ claimTurns
    let started := c.shared.started
    started.map (fun start => (start.controllerId, start.time, start.window)) =
        [(7, 100000000000, 0), (8, 400000000000, 1)] ∧
      (∀ start ∈ started, start.task.enabled = true ∧ start.task.nextRunAt ≤ start.time) ∧
      started.Pairwise fun a b => ¬ (a.task.id = b.task.id ∧ a.window = b.window) :=
  have hd := claims_only_due_tasks oneTask 100000000000 (by decide)
  ⟨by decide, hd.1, hd.2 (by decide)⟩

end Uptrakit.Scheduler
