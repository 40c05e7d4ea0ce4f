import Mathlib.Algebra.Order.Ring.Nat
import Mathlib.Data.List.Nodup
import Uptrakit.Agent.Execution

/-!
# Batches of updates

An agent updates several packages with one plugin and answers for each of them
(`batch_update_inner` of `crates/shared/agent-core/src/client.rs`).  What the plugin returns has
package identifiers only, and a map from these finds the updates again.  Every update is answered
once, with its own outcome, if the identifiers differ and nothing has succeeded when the batch
times out (`batch_answered_iff`).

The output of the plugin goes to a channel from which nobody receives: a batch with more lines
than the channel holds waits until it times out (`batch_never_waits_iff`).
-/

namespace Uptrakit.Agent.BatchUpdate

open Text List

structure BatchUpdateItem where
  hostSoftwareItemId : Uuid
  updateHistoryId : Uuid
  packageIdentifier : String
  toVersion : String
  deriving DecidableEq

structure BatchUpdateResult where
  packageIdentifier : String
  success : Bool
  output : String

structure BatchUpdateItemResult where
  hostSoftwareItemId : Uuid
  updateHistoryId : Uuid
  status : UpdateFinalStatus
  output : String
  installedVersion : Option String := none
  error : Option String

/-- `wire_validate`, of the updates. -/
def wireValidate (updates : List BatchUpdateItem) : Bool :=
  decide (updates.length ≤ 500) &&
    updates.all fun u => decide (len u.packageIdentifier ≤ 1024 ∧ len u.toVersion ≤ 1024)

/-- An update, and what `execute_update` returns for it: its output or an error. -/
abbrev Attempt := BatchUpdateItem × Except String String

/-- `execute_batch_update`, as a plugin has it by default. -/
def executeBatchUpdate (attempts : List Attempt) : List BatchUpdateResult :=
  attempts.map fun (item, result) =>
    match result with
    | .ok output => ⟨item.packageIdentifier, true, output⟩
    | .error e => ⟨item.packageIdentifier, false, e⟩

/-- From the package identifiers to the updates; the last one with an identifier stays. -/
def correlation (updates : List BatchUpdateItem) : String → Option (Uuid × Uuid) :=
  updates.foldl (fun map u =>
    Function.update map u.packageIdentifier (some (u.hostSoftwareItemId, u.updateHistoryId)))
    fun _ => none

inductive Ending
  | finished
  /-- The plugin is not there or does not fit the host, or a hook fails before it runs. -/
  | failed (errorMsg : String)
  /-- The time is over when so many of the updates have ended. -/
  | elapsed (done : Nat)

def failedResult (errorMsg : String) (u : BatchUpdateItem) : BatchUpdateItemResult where
  hostSoftwareItemId := u.hostSoftwareItemId
  updateHistoryId := u.updateHistoryId
  status := .failed
  output := ""
  error := some errorMsg

def batchUpdateInner (timeout : Nat) (attempts : List Attempt) :
    Ending → List BatchUpdateItemResult
  | .finished => (executeBatchUpdate attempts).map fun r =>
    let ids := (correlation (attempts.map (·.1)) r.packageIdentifier).getD (0, 0)
    { hostSoftwareItemId := ids.1
      updateHistoryId := ids.2
      status := if r.success then .completed else .failed
      output := r.output
      error := if r.success then none else some "Package update failed" }
  | .failed errorMsg => attempts.map fun a => failedResult errorMsg a.1
  | .elapsed _ =>
    attempts.map fun a => failedResult s!"Batch update timed out after {timeout}s" a.1

/-! ## Every update is answered -/

/-- Whose update an entry is, and whether it says that it succeeded. -/
def BatchUpdateItemResult.answer (r : BatchUpdateItemResult) : Uuid × Uuid × Bool :=
  (r.updateHistoryId, r.hostSoftwareItemId, decide (r.status = .completed))

def Attempt.answer (succeeded : Bool) (a : Attempt) : Uuid × Uuid × Bool :=
  (a.1.updateHistoryId, a.1.hostSoftwareItemId, succeeded)

def Ending.executed (attempts : List Attempt) : Ending → Nat
  | finished => attempts.length
  | failed _ => 0
  | elapsed done => done

/-- The entries are one for each update, with its own outcome, and no others. -/
def Answered (timeout : Nat) (attempts : List Attempt) (ending : Ending) : Prop :=
  ((batchUpdateInner timeout attempts ending).map (·.answer)).Perm
    (((attempts.take (ending.executed attempts)).map fun a => a.answer a.2.isOk) ++
      (attempts.drop (ending.executed attempts)).map (·.answer false))

/-- The identifiers differ, or the plugin does not run, or nothing has succeeded in time. -/
def Ending.Separates (attempts : List Attempt) : Ending → Prop
  | finished => (attempts.map (·.1.packageIdentifier)).Nodup
  | failed _ => True
  | elapsed done => ∀ a ∈ attempts.take done, a.2.isOk = false

variable {attempts : List Attempt} {a : Attempt} {updates : List BatchUpdateItem}

theorem exists_of_correlation {u} (h : u ∈ updates) :
    ∃ v ∈ updates, v.packageIdentifier = u.packageIdentifier ∧
      correlation updates u.packageIdentifier = some (v.hostSoftwareItemId, v.updateHistoryId) := by
  induction updates using reverseRecOn with
  | nil => cases h
  | append_singleton updates last ih =>
    rw [correlation, foldl_concat, Function.update_apply]
    split
    · exact ⟨last, by simp, by simp_all⟩
    · obtain ⟨v, hv, hs⟩ := ih (by grind)
      exact ⟨v, mem_append_left _ hv, hs⟩

/-- The map finds the update again. -/
def Attempt.Found (attempts : List Attempt) (a : Attempt) : Prop :=
  correlation (attempts.map (·.1)) a.1.packageIdentifier =
    some (a.1.hostSoftwareItemId, a.1.updateHistoryId)

theorem answers_finished (timeout attempts) :
    (batchUpdateInner timeout attempts .finished).map (·.answer) = attempts.map fun a =>
      let ids := (correlation (attempts.map (·.1)) a.1.packageIdentifier).getD (0, 0)
      (ids.2, ids.1, a.2.isOk) := by
  simp only [batchUpdateInner, executeBatchUpdate, map_map]
  refine map_congr_left fun a _ => ?_
  obtain ⟨_, _ | e⟩ := a <;> rfl

variable (hids : (attempts.map (·.1.updateHistoryId)).Nodup)

include hids

theorem found_of_answered {timeout} (h : Answered timeout attempts .finished) (ha : a ∈ attempts) :
    a.Found attempts := by
  have han : a.answer a.2.isOk ∈
      (batchUpdateInner timeout attempts .finished).map (·.answer) := by
    rw [h.mem_iff, Ending.executed, take_length]
    exact mem_append_left _ (mem_map_of_mem (f := fun a : Attempt => a.answer a.2.isOk) ha)
  rw [answers_finished] at han
  obtain ⟨b, hb, heq⟩ := mem_map.mp han
  obtain ⟨v, hv, hs, hf⟩ := exists_of_correlation (mem_map_of_mem (f := Prod.fst) hb)
  obtain ⟨c, hc, rfl⟩ := mem_map.mp hv
  rw [hf] at heq
  obtain rfl := inj_on_of_nodup_map hids hc ha (congrArg Prod.fst heq)
  rwa [Attempt.Found, hs]

theorem answered_finished_iff (timeout) :
    Answered timeout attempts .finished ↔ (attempts.map (·.1.packageIdentifier)).Nodup := by
  constructor
  · intro h
    refine (Nodup.of_map _ hids).map_on fun a ha b hb heq => ?_
    have hf := found_of_answered hids h ha
    rw [Attempt.Found, heq, found_of_answered hids h hb, Option.some.injEq] at hf
    exact inj_on_of_nodup_map hids ha hb (congrArg Prod.snd hf).symm
  · intro h
    rw [Answered, answers_finished]
    refine .of_eq ?_
    simp only [Ending.executed, take_length, drop_length, map_nil, append_nil]
    refine map_congr_left fun a ha => ?_
    obtain ⟨v, hv, hs, hf⟩ := exists_of_correlation (mem_map_of_mem (f := Prod.fst) ha)
    obtain ⟨c, hc, rfl⟩ := mem_map.mp hv
    obtain rfl := inj_on_of_nodup_map h hc ha hs
    rw [hf]
    rfl

/-- For all payloads whose update history ids differ: every update has exactly one entry, with its
own outcome, if and only if the identifiers differ when the batch finishes, and nothing has
succeeded when it times out. -/
theorem batch_answered_iff (timeout : Nat) (ending : Ending) :
    Answered timeout attempts ending ↔ ending.Separates attempts := by
  cases ending with
  | finished => exact answered_finished_iff hids timeout
  | failed errorMsg =>
    refine iff_of_true (.of_eq ?_) trivial
    simp only [batchUpdateInner, map_map]
    rfl
  | elapsed done =>
    have he : (batchUpdateInner timeout attempts (.elapsed done)).map (·.answer) =
        attempts.map (·.answer false) := by
      simp only [batchUpdateInner, map_map]
      rfl
    rw [Answered, he]
    constructor
    · intro h a ha
      by_contra hok
      obtain ⟨b, -, heq⟩ := mem_map.mp (h.mem_iff.mpr (mem_append_left _ (mem_map_of_mem ha)))
      exact hok (congrArg (·.2.2) heq).symm
    · intro h
      have hn : ((attempts.take done).map fun a => a.answer a.2.isOk) =
          (attempts.take done).map (·.answer false) := map_congr_left fun a ha => by rw [h a ha]
      rw [Ending.executed, hn, ← map_append, take_append_drop]

omit hids

/-- Two updates of one package, for two links. -/
def samePackage : List Attempt :=
  [(⟨1, 11, "a", "2"⟩, .ok ""), (⟨2, 12, "a", "2"⟩, .error "locked")]

/-- The second link is told that its update failed, and that it succeeded. -/
theorem samePackage_unanswered :
    wireValidate (samePackage.map (·.1)) = true ∧
      (samePackage.map (·.1.updateHistoryId)).Nodup ∧ ¬ Answered 60 samePackage .finished := by
  unfold Answered
  decide

theorem batch_answered_iff_samePackage :
    (samePackage.map (·.1.updateHistoryId)).Nodup ∧ Answered 60 samePackage (.elapsed 0) := by
  have hids : (samePackage.map (·.1.updateHistoryId)).Nodup := by decide
  exact ⟨hids, (batch_answered_iff hids 60 (.elapsed 0)).mpr (by simp [Ending.Separates])⟩

/-! ## Output -/

/-- What a plugin does with the channel: it sends a line, or runs a command (`run_command_exec_impl`
of `crates/shared/command/src/command.rs`) whose two reader tasks send the lines of its output. -/
inductive PluginStep
  | send
  | command (stdout stderr : Nat)
  deriving DecidableEq

/-- The channel, what the plugin has to do, what the readers of its command have to send, and what
those of commands whose time was over have. -/
structure Output where
  buffered : Nat := 0
  plugin : List PluginStep
  stdout : Nat := 0
  stderr : Nat := 0
  draining : Nat := 0
  deriving DecidableEq

/-- The tasks that share the channel, and the ends of a command's time and of a drain's. -/
inductive Task
  | plugin | stdout | stderr | drain
  /-- The command is killed, after it has written some lines. -/
  | deadline (written : Nat)
  | drainOver
  deriving DecidableEq

def outputCapacity : Nat := 100

/-- A task goes on.  A sender waits while the channel is full, and the plugin waits for the readers
of its command; when its time is over, they are detached (`DrainOnAbandon`, which all commands of an
update have), and aborted when the drain takes too long.  No task receives. -/
def Output.step (s : Output) : Task → Output
  | .plugin =>
    if s.stdout = 0 ∧ s.stderr = 0 then
      match s.plugin with
      | [] => s
      | .send :: rest =>
        if s.buffered < outputCapacity then { s with buffered := s.buffered + 1, plugin := rest }
        else s
      | .command stdout stderr :: rest => { s with plugin := rest, stdout, stderr }
    else s
  | .stdout =>
    if s.stdout ≠ 0 ∧ s.buffered < outputCapacity then
      { s with buffered := s.buffered + 1, stdout := s.stdout - 1 }
    else s
  | .stderr =>
    if s.stderr ≠ 0 ∧ s.buffered < outputCapacity then
      { s with buffered := s.buffered + 1, stderr := s.stderr - 1 }
    else s
  | .drain =>
    if s.draining ≠ 0 ∧ s.buffered < outputCapacity then
      { s with buffered := s.buffered + 1, draining := s.draining - 1 }
    else s
  | .deadline written =>
    { s with
      stdout := 0
      stderr := 0
      draining := s.draining + min written (s.stdout + s.stderr) }
  | .drainOver => { s with draining := 0 }

/-- A task waits to send. -/
def Output.Waiting (s : Output) : Prop :=
  s.buffered = outputCapacity ∧
    (s.stdout ≠ 0 ∨ s.stderr ≠ 0 ∨ s.draining ≠ 0 ∨
      s.stdout = 0 ∧ s.stderr = 0 ∧ s.plugin.head? = some .send)

instance (s : Output) : Decidable s.Waiting := inferInstanceAs (Decidable (_ ∧ _))

def PluginStep.lines : PluginStep → Nat
  | send => 1
  | command stdout stderr => stdout + stderr

def lines (plugin : List PluginStep) : Nat := (plugin.map (·.lines)).sum

/-- The lines that are sent or still to be sent. -/
def Output.total (s : Output) : Nat :=
  s.buffered + s.stdout + s.stderr + s.draining + lines s.plugin

theorem Output.total_step (s : Output) (task : Task) : (s.step task).total ≤ s.total := by
  cases task with
  | plugin =>
    simp only [step]
    split
    · rename_i hj
      split
      · exact le_rfl
      · rename_i hp
        split
        · simp [total, hp, lines, PluginStep.lines]
          omega
        · exact le_rfl
      · rename_i hp
        simp [total, hp, lines, PluginStep.lines]
        omega
    · exact le_rfl
  | stdout | stderr | drain =>
    simp only [step]
    split
    · simp only [total]
      omega
    · exact le_rfl
  | deadline | drainOver =>
    simp only [step, total]
    omega

theorem Output.total_foldl (s : Output) (tasks : List Task) :
    (tasks.foldl step s).total ≤ s.total := by
  induction tasks generalizing s with
  | nil => exact le_rfl
  | cons task _ ih => exact (ih _).trans (s.total_step task)

def Output.rest (s : Output) : Nat :=
  s.stdout + s.stderr + s.draining + lines s.plugin + s.plugin.length

/-- Unless a task waits, one can go on, and no line is lost. -/
theorem Output.exists_step {s : Output} (hle : s.buffered ≤ outputCapacity)
    (hlt : outputCapacity < s.total) (h : ¬ s.Waiting) :
    ∃ task, (s.step task).buffered ≤ outputCapacity ∧ (s.step task).total = s.total ∧
      (s.step task).rest < s.rest := by
  have hf : s.stdout ≠ 0 ∨ s.stderr ≠ 0 ∨ s.draining ≠ 0 ∨
      s.stdout = 0 ∧ s.stderr = 0 ∧ s.plugin.head? = some .send → s.buffered < outputCapacity :=
    fun hs => lt_of_le_of_ne hle fun heq => h ⟨heq, hs⟩
  by_cases hd : s.draining = 0
  · by_cases ho : s.stdout = 0
    · by_cases he : s.stderr = 0
      · refine ⟨.plugin, ?_⟩
        simp only [step, ho, he]
        cases hp : s.plugin with
        | nil => simp [total, hp, lines] at hlt; omega
        | cons first =>
          cases first with
          | send =>
            have hr := hf (by simp [ho, he, hp])
            simp [hr, total, rest, hp, lines, PluginStep.lines]
            omega
          | command =>
            simp [total, rest, hp, lines, PluginStep.lines]
            omega
      · have hr := hf (.inr (.inl he))
        refine ⟨.stderr, ?_⟩
        simp only [step, he, hr, ne_eq, not_false_eq_true, and_self, if_true, total, rest]
        omega
    · have hr := hf (.inl ho)
      refine ⟨.stdout, ?_⟩
      simp only [step, ho, hr, ne_eq, not_false_eq_true, and_self, if_true, total, rest]
      omega
  · have hr := hf (.inr (.inr (.inl hd)))
    refine ⟨.drain, ?_⟩
    simp only [step, hd, hr, ne_eq, not_false_eq_true, and_self, if_true, total, rest]
    omega

/-- With more lines than the channel holds, some task comes to wait. -/
theorem Output.exists_waiting (s : Output) (hle : s.buffered ≤ outputCapacity)
    (hlt : outputCapacity < s.total) : ∃ tasks : List Task, (tasks.foldl step s).Waiting := by
  induction hr : s.rest using Nat.strong_induction_on generalizing s with
  | _ n ih =>
    by_cases hw : s.Waiting
    · exact ⟨[], hw⟩
    · obtain ⟨task, hle', ht, hl⟩ := exists_step hle hlt hw
      obtain ⟨tasks, h⟩ := ih _ (hr ▸ hl) _ hle' (ht ▸ hlt) rfl
      exact ⟨task :: tasks, h⟩

/-- For every plugin: in no state that the tasks can reach, in any order, does one wait to send, if
and only if all the lines fit the channel. -/
theorem batch_never_waits_iff (plugin : List PluginStep) :
    (∀ tasks : List Task, ¬ (tasks.foldl Output.step { plugin }).Waiting) ↔
      lines plugin ≤ outputCapacity := by
  have ht : Output.total { plugin } = lines plugin := by simp [Output.total]
  constructor
  · intro h
    by_contra hlt
    rw [not_le, ← ht] at hlt
    obtain ⟨tasks, hw⟩ := Output.exists_waiting { plugin } (Nat.zero_le _) hlt
    exact h tasks hw
  · rintro hle tasks ⟨_, hs⟩
    have hk := Output.total_foldl { plugin } tasks
    generalize tasks.foldl Output.step { plugin } = s at *
    simp only [Output.total] at hk
    obtain ho | he | hd | ⟨-, -, hh⟩ := hs
    · omega
    · omega
    · omega
    · obtain ⟨rest, hp⟩ := head?_eq_some_iff.mp hh
      have hl : lines s.plugin = 1 + lines rest := by
        rw [hp]
        rfl
      omega

/-- The reader of a command waits with its line 101, also after the command was killed. -/
theorem batch_waits :
    let tasks := .plugin :: replicate 100 .stdout
    (tasks.foldl Output.step { plugin := [.command 101 0] }).Waiting ∧
      ((tasks ++ [Task.deadline 1]).foldl Output.step { plugin := [.command 101 0] }).Waiting := by
  decide +kernel

end Uptrakit.Agent.BatchUpdate
