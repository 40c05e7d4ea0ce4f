import Uptrakit.Concurrent.Run
import Uptrakit.Scheduler.Claims

/-!
# The lease of a task

Five statements act on the lock of a task (`crates/core/scheduler-runtime/src/claim.rs`).  A claim
sets it, a heartbeat renews its time, and it goes by `release_claim` or `release_all_claims` of
its holder, or by `recover_stale_claims` of any controller when the time is too old.

The database compares the time with the cutoff.  SQLite compares their texts, and takes a claim
away that is not too old if its text goes on where that of the cutoff ends
(`young_claim_recovered`).  Otherwise nobody else gets the task before its holder lets it go while
the heartbeats arrive; and what `release_claim` writes about the run it writes for the controller
that has claimed the task last, whether heartbeats arrive or not (`lease_exclusive`).
-/

namespace Uptrakit.Scheduler

open Concurrent Data List Function Bool
open Update (Uuid)

/-- The calls of the functions of `claim.rs` that write. -/
inductive Call
  | tryClaim (taskId controllerId : Uuid) (now : Int)
  | releaseClaim (taskId controllerId : Uuid) (nextRunAt now : Int) (result : Except String Unit)
  | recoverStaleClaims (now : Int)
  | refreshClaims (controllerId : Uuid) (liveIds : List Uuid) (now : Int)
  | releaseAllClaims (controllerId : Uuid)

namespace Call

def statement (db : Backend) : Call → Statement
  | tryClaim taskId controllerId now => Scheduler.tryClaim db taskId controllerId now
  | releaseClaim taskId controllerId nextRunAt now result =>
    Scheduler.releaseClaim db taskId controllerId nextRunAt now result
  | recoverStaleClaims now => Scheduler.recoverStaleClaims db now
  | refreshClaims controllerId liveIds now => Scheduler.refreshClaims db controllerId liveIds now
  | releaseAllClaims controllerId => Scheduler.releaseAllClaims controllerId

/-- `rows_affected == 1`, which `try_claim` returns. -/
def succeeds (db : Backend) (tasks : ScheduledTasks) (call : Call) : Bool :=
  ((call.statement db).found tasks).length == 1

/-- The controller lets the task go. -/
def releases (taskId controllerId : Uuid) : Call → Prop
  | releaseClaim task controller _ _ _ => task = taskId ∧ controller = controllerId
  | releaseAllClaims controller => controller = controllerId
  | _ => False

/-- When stale claims are recovered, the holder of the task has sent a heartbeat in time. -/
def Timely (taskId : Uuid) (tasks : ScheduledTasks) : Call → Prop
  | recoverStaleClaims now => ∀ task ∈ tasks.rows, task.id = taskId → task.lockedBy.isSome →
      ∀ lockedAt ∈ task.lockedAt, now - lockedAt ≤ staleClaimSeconds * nanosPerSecond
  | _ => True

/-- When stale claims are recovered, the text of the heartbeat comes before that of the cutoff,
although the time does not. -/
def Misorders (db : Backend) (taskId : Uuid) (tasks : ScheduledTasks) : Call → Prop
  | recoverStaleClaims now => db = .sqlite ∧ ∃ task ∈ tasks.rows, task.id = taskId ∧
      ∃ lockedAt ∈ task.lockedAt, now - staleClaimSeconds * nanosPerSecond < lockedAt ∧
        lockedAt < Backend.sqlite.next (now - staleClaimSeconds * nanosPerSecond)
  | _ => False

end Call

/-- The table, and for every task the controller that has claimed it last. -/
structure Leases where
  tasks : ScheduledTasks
  claimant : Uuid → Option Uuid

namespace Leases

/-- A lock that is there at the start counts as the last claim. -/
def start (tasks : ScheduledTasks) : Leases :=
  ⟨tasks, fun taskId => (tasks.rows.find? (·.id == taskId)).bind (·.lockedBy)⟩

def step (db : Backend) (s : Leases) (call : Call) : Leases where
  tasks := (call.statement db).exec s.tasks
  claimant :=
    match call with
    | .tryClaim taskId controllerId _ =>
      if call.succeeds db s.tasks then Function.update s.claimant taskId (some controllerId)
      else s.claimant
    | _ => s.claimant

def run (db : Backend) (s : Leases) (calls : List Call) : Leases := calls.foldl (step db) s

end Leases

/-! ## Rows -/

variable {db : Backend} {tasks : ScheduledTasks} {task : ScheduledTask} {taskId controllerId : Uuid}

theorem mem_rows_exec {u : Statement} :
    task ∈ (u.exec tasks).rows ↔ ∃ before ∈ tasks.rows, u.row before = task :=
  mem_map

theorem eq_of_id {a b} (ha : a ∈ tasks.rows) (hb : b ∈ tasks.rows) (hid : a.id = b.id) : a = b :=
  tasks.valid.eq_of_clash (fun _ _ => Eq.symm) ha hb hid

theorem guard_tryClaim {now} : (tryClaim db taskId controllerId now).guard task = true ↔
      task.id = taskId ∧ task.lockedBy = none := by
  simp [tryClaim]

/-- A claim finds at most one row, that of its task. -/
theorem tryClaim_succeeds_iff {now} :
    (Call.tryClaim taskId controllerId now).succeeds db tasks = true ↔
      ∃ task ∈ tasks.rows, task.id = taskId ∧ task.lockedBy = none := by
  show (((tryClaim db taskId controllerId now).found tasks).length == 1) = true ↔ _
  have hm : ∀ task, task ∈ (tryClaim db taskId controllerId now).found tasks ↔
      task ∈ tasks.rows ∧ task.id = taskId ∧ task.lockedBy = none := by
    intro task
    rw [Statement.found, mem_filter, guard_tryClaim]
  have hap : ((tryClaim db taskId controllerId now).found tasks).Pairwise
      fun a b => ¬ a.id = b.id := tasks.valid.filter _
  generalize (tryClaim db taskId controllerId now).found tasks = found at hm hap
  rcases found with _ | ⟨a, _ | ⟨b, rest⟩⟩
  · refine iff_of_false (by simp) ?_
    rintro ⟨task, ht⟩
    cases (hm task).2 ht
  · exact iff_of_true rfl ⟨a, (hm a).1 mem_cons_self⟩
  · have ha := ((hm a).1 mem_cons_self).2.1
    have hb := ((hm b).1 (mem_cons_of_mem _ mem_cons_self)).2.1
    exact absurd (ha.trans hb.symm) (rel_of_pairwise_cons hap mem_cons_self)

/-- Which heartbeats that are not too old a recovery takes for too old. -/
theorem guard_recoverStaleClaims_iff (db : Backend) {now} (ht : task ∈ tasks.rows)
    (hlo : task.lockedBy.isSome) (hti : (Call.recoverStaleClaims now).Timely task.id tasks) :
    (recoverStaleClaims db now).guard task = true ↔
      (Call.recoverStaleClaims now).Misorders db task.id tasks := by
  have hlt : ∀ lockedAt ∈ task.lockedAt,
      (db.lt lockedAt (now - staleClaimSeconds * nanosPerSecond) = true ↔
        db = .sqlite ∧ now - staleClaimSeconds * nanosPerSecond < lockedAt ∧
          lockedAt < Backend.sqlite.next (now - staleClaimSeconds * nanosPerSecond)) := by
    intro lockedAt hl
    have ha := hti task ht rfl hlo lockedAt hl
    exact Backend.lt_iff_of_le (by omega)
  constructor
  · intro hg
    obtain ⟨lockedAt, hl, hs⟩ := (Option.any_eq_true _ _).1 hg
    obtain ⟨hdb, hte⟩ := (hlt lockedAt hl).1 hs
    exact ⟨hdb, task, ht, rfl, lockedAt, hl, hte⟩
  · rintro ⟨hdb, found, hf, hid, lockedAt, hl, hte⟩
    obtain rfl := eq_of_id hf ht hid
    exact (Option.any_eq_true _ _).2 ⟨lockedAt, hl, (hlt lockedAt hl).2 ⟨hdb, hte⟩⟩

/-- While the heartbeats arrive, a lock goes only with a release of its holder, or by a recovery
that misorders its time. -/
theorem lockedBy_row_of_timely (db : Backend) {call : Call} (hta : task ∈ tasks.rows)
    (hl : task.lockedBy = some controllerId) (ht : call.Timely task.id tasks)
    (hr : ¬ call.releases task.id controllerId) :
    ((call.statement db).row task).lockedBy = some controllerId ∧
        ¬ call.Misorders db task.id tasks ∨
      ((call.statement db).row task).lockedBy = none ∧ call.Misorders db task.id tasks := by
  unfold Concurrent.Update.row
  cases call with
  | tryClaim =>
    left
    split
    · next hg =>
      rw [(guard_tryClaim.1 hg).2] at hl
      cases hl
    · exact ⟨hl, id⟩
  | releaseClaim =>
    left
    split
    · next hg =>
      simp only [Call.statement, releaseClaim, and_eq_true, beq_iff_eq, hl, Option.some.injEq] at hg
      exact absurd ⟨hg.1.symm, hg.2.symm⟩ hr
    · exact ⟨hl, id⟩
  | recoverStaleClaims now =>
    have hg := guard_recoverStaleClaims_iff db hta (by rw [hl]; rfl) ht
    split
    · next hre => exact .inr ⟨rfl, hg.1 hre⟩
    · next hk => exact .inl ⟨hl, mt hg.2 hk⟩
  | refreshClaims =>
    left
    split <;> exact ⟨hl, id⟩
  | releaseAllClaims =>
    left
    split
    · next hg =>
      simp only [Call.statement, releaseAllClaims, beq_iff_eq, hl, Option.some.injEq] at hg
      exact absurd hg.symm hr
    · exact ⟨hl, id⟩

/-! ## Runs -/

namespace Leases

/-- The controller holds the task. -/
def Held (taskId controllerId : Uuid) (s : Leases) : Prop :=
  ∃ task ∈ s.tasks.rows, task.id = taskId ∧ task.lockedBy = some controllerId

/-- No claim of the task succeeds. -/
def Taken (db : Backend) (taskId : Uuid) (s : Leases) : Prop :=
  ∀ other now, (Call.tryClaim taskId other now).succeeds db s.tasks = false

variable {s : Leases} {taskId controllerId : Uuid}

theorem Held.taken (h : s.Held taskId controllerId) : s.Taken db taskId := by
  intro other now
  rw [← not_eq_true, tryClaim_succeeds_iff]
  rintro ⟨task, ht, rfl, hf⟩
  obtain ⟨holder, hh, hid, hl⟩ := h
  obtain rfl := eq_of_id hh ht hid
  rw [hf] at hl
  cases hl

/-- While the heartbeats arrive, a holder that does not let the task go keeps it, or it can be
claimed and the call has misordered the time of the claim. -/
theorem Held.step (h : s.Held taskId controllerId) {call : Call}
    (hti : call.Timely taskId s.tasks) (hr : ¬ call.releases taskId controllerId) :
    (s.step db call).Held taskId controllerId ∧ ¬ call.Misorders db taskId s.tasks ∨
      ¬ (s.step db call).Taken db taskId ∧ call.Misorders db taskId s.tasks := by
  obtain ⟨task, ht, rfl, hl⟩ := h
  have hro : (call.statement db).row task ∈ (s.step db call).tasks.rows :=
    mem_rows_exec.2 ⟨task, ht, rfl⟩
  have hid := (call.statement db).id_row task
  rcases lockedBy_row_of_timely db ht hl hti hr with
    ⟨hk, ho⟩ | ⟨hf, hm⟩
  · exact .inl ⟨⟨_, hro, hid, hk⟩, ho⟩
  · refine .inr ⟨fun hta => ?_, hm⟩
    refine eq_false_iff.1 (hta controllerId 0) ?_
    exact tryClaim_succeeds_iff.2 ⟨_, hro, hid, hf⟩

/-- The task stays taken exactly as long as no recovery misorders the time of the claim. -/
theorem Held.taken_iff (h : s.Held taskId controllerId) {calls : List Call}
    (hme : Meets (Leases.step db)
      (fun s call => call.Timely taskId s.tasks ∧ ¬ call.releases taskId controllerId) s calls) :
    (∀ n, (s.run db (calls.take n)).Taken db taskId) ↔
      Meets (Leases.step db) (fun s call => ¬ call.Misorders db taskId s.tasks) s calls := by
  refine forall_foldl_take_iff_meets hme ?_ ?_ h h.taken
  · intro s call hh hg ht
    rcases hh.step hg.1 hg.2 with ⟨hk, -⟩ | ⟨hf, -⟩
    · exact hk
    · exact absurd ht hf
  · intro s call hh hg _
    rcases hh.step hg.1 hg.2 with ⟨hk, ho⟩ | ⟨hf, hm⟩
    · exact iff_of_true hk.taken ho
    · exact iff_of_false hf (not_not_intro hm)

/-- The holder of a task is the controller that has claimed it last. -/
def Claimed (s : Leases) : Prop :=
  ∀ task ∈ s.tasks.rows, ∀ controllerId, task.lockedBy = some controllerId →
    s.claimant task.id = some controllerId

theorem claimed_start (tasks) : (start tasks).Claimed := by
  intro task ht controllerId hl
  show (tasks.rows.find? (·.id == task.id)).bind (·.lockedBy) = some controllerId
  cases hf : tasks.rows.find? (·.id == task.id) with
  | none =>
    have hn := find?_eq_none.1 hf task ht
    exact absurd (beq_self_eq_true task.id) hn
  | some found =>
    have hid : found.id = task.id := by simpa using find?_some hf
    obtain rfl := eq_of_id (mem_of_find?_eq_some hf) ht hid
    exact hl

/-- Locked tasks stay locked by their last claimants. -/
theorem Claimed.step (h : s.Claimed) (call : Call) : (s.step db call).Claimed := by
  intro after ha controllerId hl
  obtain ⟨task, ht, rfl⟩ := mem_rows_exec.1 ha
  rw [(call.statement db).id_row]
  have hk (hb : task.lockedBy = some controllerId) :
      (s.step db call).claimant task.id = some controllerId := by
    -- The task is locked, so a claim of it does not succeed.
    have hh : s.Held task.id controllerId := ⟨task, ht, rfl, hb⟩
    have hc := h task ht controllerId hb
    cases call with
    | tryClaim claimed other now =>
      show (if _ then update s.claimant claimed (some other) else s.claimant) task.id = _
      split
      · next hs =>
          rwa [update_of_ne]
          rintro rfl
          exact absurd hs (eq_false_iff.1 (hh.taken other now))
      · exact hc
    | releaseClaim | recoverStaleClaims | refreshClaims | releaseAllClaims => exact hc
  unfold Concurrent.Update.row at hl
  split at hl
  · next hg =>
      cases call with
      | tryClaim _ _ now =>
        obtain ⟨rfl, hf⟩ := guard_tryClaim.1 hg
        cases hl
        have hs : (Call.tryClaim task.id controllerId now).succeeds db s.tasks = true :=
          tryClaim_succeeds_iff.2 ⟨task, ht, rfl, hf⟩
        show (if _ then update s.claimant task.id (some controllerId) else s.claimant) task.id = _
        rw [if_pos hs, update_self]
      | releaseClaim | recoverStaleClaims | releaseAllClaims => cases hl
      | refreshClaims => exact hk hl
  · exact hk hl

end Leases

/-! ## The lease -/

def ScheduledTask.runMetadata (task : ScheduledTask) : Int × Option Int × Int :=
  (task.runCount, task.lastRunAt, task.nextRunAt)

/-- In every run of the calls, with any arguments and in any order: while the heartbeats arrive,
no claim of a task succeeds between a claim that does and the release by its controller, exactly
as long as no recovery misorders the time of the claim; and the columns about the runs of a task are
written by `release_claim` alone, for the controller that has claimed the task last. -/
theorem lease_exclusive (db : Backend) (tasks : ScheduledTasks) (calls : List Call) :
    let s := (Leases.start tasks).run db calls
    (∀ taskId controllerId now,
      (Call.tryClaim taskId controllerId now).succeeds db s.tasks = true →
      ∀ during, Meets (Leases.step db)
          (fun s call => call.Timely taskId s.tasks ∧ ¬ call.releases taskId controllerId)
          (s.step db (.tryClaim taskId controllerId now)) during →
        ((∀ n other later, (Call.tryClaim taskId other later).succeeds db
            ((s.step db (.tryClaim taskId controllerId now)).run db
              (during.take n)).tasks = false) ↔
          Meets (Leases.step db) (fun s call => ¬ call.Misorders db taskId s.tasks)
            (s.step db (.tryClaim taskId controllerId now)) during)) ∧
    (∀ taskId controllerId nextRunAt now result, ∀ task ∈ s.tasks.rows,
      (releaseClaim db taskId controllerId nextRunAt now result).guard task = true →
        task.id = taskId ∧ s.claimant taskId = some controllerId) ∧
    ∀ (call : Call), ∀ task ∈ s.tasks.rows,
      ((call.statement db).row task).runMetadata ≠ task.runMetadata →
        ∃ controllerId nextRunAt now result,
          call = .releaseClaim task.id controllerId nextRunAt now result ∧
            s.claimant task.id = some controllerId := by
  intro s
  have hst : ∀ (s : Leases) call, s.Claimed → (s.step db call).Claimed :=
    fun _ call h => h.step call
  have hcla : s.Claimed := foldl_invariant hst (Leases.claimed_start tasks) calls
  refine ⟨?_, (and_iff_left_of_imp fun hr => ?_).2 ?_⟩
  · intro taskId controllerId now hs during hm
    have hh : (s.step db (.tryClaim taskId controllerId now)).Held taskId controllerId := by
      obtain ⟨task, ht, rfl, hf⟩ := tryClaim_succeeds_iff.1 hs
      refine ⟨_, mem_rows_exec.2 ⟨task, ht, rfl⟩, (tryClaim db task.id _ now).id_row task, ?_⟩
      exact congrArg _ (if_pos (guard_tryClaim.2 ⟨rfl, hf⟩))
    exact hh.taken_iff hm
  · intro call task ht hc
    have hg : (call.statement db).guard task = true := by
      by_contra hg
      exact hc (congrArg _ (if_neg hg))
    rw [Concurrent.Update.row, if_pos hg] at hc
    cases call with
    | releaseClaim taskId controllerId nextRunAt now result =>
      obtain ⟨rfl, hcl⟩ := hr taskId controllerId nextRunAt now result task ht hg
      exact ⟨controllerId, nextRunAt, now, result, rfl, hcl⟩
    -- the other calls do not write about runs
    | _ => exact absurd rfl hc
  · intro taskId controllerId nextRunAt now result task ht hg
    simp only [releaseClaim, and_eq_true, beq_iff_eq] at hg
    obtain ⟨rfl, hl⟩ := hg
    exact ⟨rfl, hcla task ht controllerId hl⟩

/-- Controller 7 claims the task at 100 s and sends a heartbeat at 400 s, so that the recovery of
stale claims at 801 s leaves the task to it.  Without the heartbeat it would not. -/
theorem lease_exclusive_oneTask :
    let claimed := (Leases.start oneTask).step .sqlite (.tryClaim 1 7 100000000000)
    let later := claimed.run .sqlite
      [.refreshClaims 7 [1] 400000000000, .recoverStaleClaims 801000000000]
    (Call.tryClaim 1 8 801000000000).succeeds .sqlite later.tasks = false ∧
      later.claimant 1 = some 7 ∧
      (Call.tryClaim 1 8 801000000000).succeeds .sqlite
        (claimed.step .sqlite (.recoverStaleClaims 801000000000)).tasks = true := by
  refine ⟨?_, by decide, by decide⟩
  refine ((lease_exclusive .sqlite oneTask []).1 1 7 100000000000 (by decide)
    [.refreshClaims 7 [1] 400000000000, .recoverStaleClaims 801000000000] ?_).2 ?_ 2 8 _
  · refine ⟨⟨trivial, id⟩, ⟨?_, id⟩, trivial⟩
    intro task ht _ _
    cases mem_singleton.1 ht
    decide
  · refine ⟨id, ?_, trivial⟩
    rintro ⟨-, task, ht, -, lockedAt, hl, -, hte⟩
    cases mem_singleton.1 ht
    cases hl
    revert hte
    decide

/-- Controller 7 claims the task at 100.5 s, and the recovery at 700 s takes the claim away, since
the text of 100.5 s comes before that of the cutoff of 100 s.  So controller 8 gets the task. -/
theorem young_claim_recovered :
    let claimed := (Leases.start oneTask).step .sqlite (.tryClaim 1 7 100500000000)
    let later := claimed.step .sqlite (.recoverStaleClaims 700000000000)
    (Call.tryClaim 1 7 100500000000).succeeds .sqlite oneTask = true ∧
      700000000000 - 100500000000 ≤ staleClaimSeconds * nanosPerSecond ∧
      (Call.tryClaim 1 8 700000000000).succeeds .sqlite later.tasks = true := by
  decide

end Uptrakit.Scheduler
