import Mathlib.Data.List.AList
import Uptrakit.Update.History

/-!
# Update batches

The table `update_batches` and the completion check of a batch,
`maybe_complete_batch` of
`crates/ui/web-api-queries/src/queries/update_batches/dispatch.rs`, which runs
its reads and its write in one transaction.

The check counts the unfinished and the failed items only.  An item that ended
`Interrupted`, added to the statuses later, is neither, so a batch can be
declared completed although the outcome of an item is unknown.
-/

namespace Uptrakit.Update

open Concurrent List

inductive BatchStatus
  | inProgress
  | completed
  | partiallyCompleted
  | other (raw : String)
  deriving DecidableEq

def BatchStatus.terminal : BatchStatus → Bool
  | completed | partiallyCompleted => true
  | inProgress | other _ => false

/-- A row of `update_batches`, without its primary key. -/
structure Batch where
  tenantId : Uuid
  status : BatchStatus
  totalCount : Int
  completedAt : Option Time
  deriving DecidableEq

structure Db where
  history : History
  batches : AList fun _ : Uuid => Batch

structure BatchCompletionInfo where
  batchId : Uuid
  tenantId : Uuid
  status : BatchStatus
  totalCount : Int
  completedCount : Nat
  failedCount : Nat

namespace Db

def items (db : Db) (batchId : Uuid) : List Row :=
  db.history.rows.filter (·.batchId == some batchId)

def maybeCompleteBatch (db : Db) (batchId tenantId : Uuid) (now : Time) :
    Db × Option BatchCompletionInfo :=
  let pendingCount := (db.items batchId).countP (·.status.unfinished)
  if 0 < pendingCount then
    (db, none)
  else
    let failedCount := (db.items batchId).countP (·.status == .failed)
    let completedCount := (db.items batchId).countP (·.status == .completed)
    let newStatus : BatchStatus := if 0 < failedCount then .partiallyCompleted else .completed
    match db.batches.lookup batchId with
    | none => (db, none)
    | some batch =>
      -- another call already committed its update
      if batch.status.terminal then
        (db, none)
      else
        ({ db with
            batches := db.batches.insert batchId
              { batch with status := newStatus, completedAt := some now } },
          some
            { batchId := batchId
              tenantId := tenantId
              status := newStatus
              totalCount := batch.totalCount
              completedCount := completedCount
              failedCount := failedCount })

/-- The batch can be settled: it is stored with a non-terminal status and none of
its items is unfinished. -/
def Settleable (db : Db) (batchId : Uuid) : Prop :=
  (∀ r ∈ db.items batchId, r.status.unfinished = false) ∧
    ∃ batch, db.batches.lookup batchId = some batch ∧ batch.status.terminal = false

variable {db : Db} {batchId tenantId : Uuid} {now : Time}

theorem maybeCompleteBatch_of_not_settleable (h : ¬ db.Settleable batchId) :
    db.maybeCompleteBatch batchId tenantId now = (db, none) := by
  fun_cases maybeCompleteBatch db batchId tenantId now with
  | case4 _ hp _ _ _ batch hb ht =>
    refine absurd ⟨fun r hr => ?_, batch, hb, by simpa using ht⟩ h
    by_contra hr'
    exact hp (countP_pos_iff.mpr ⟨r, hr, by simpa using hr'⟩)
  | _ => rfl

/-- The status a settled batch gets depends on its failed items alone. -/
theorem maybeCompleteBatch_of_settleable (h : db.Settleable batchId) (tenantId : Uuid)
    (now : Time) :
    ∃ info, (db.maybeCompleteBatch batchId tenantId now).2 = some info ∧ info.batchId = batchId ∧
      ∃ batch, (db.maybeCompleteBatch batchId tenantId now).1.batches.lookup batchId = some batch ∧
        db.batches.lookup batchId ≠ some batch ∧
        batch.status.terminal = true ∧
        (batch.status = .partiallyCompleted ↔ ∃ r ∈ db.items batchId, r.status = .failed) := by
  obtain ⟨hi, batch, hb, ho⟩ := h
  have hp : ¬ 0 < (db.items batchId).countP (·.status.unfinished) := by
    rw [countP_pos_iff]
    rintro ⟨r, hr, hu⟩
    simp [hi r hr] at hu
  simp only [maybeCompleteBatch, hp, hb, ho, if_false, Bool.false_eq_true, AList.lookup_insert]
  refine ⟨_, rfl, rfl, _, rfl, ?_, ?_, ?_⟩
  · intro heq
    have hs := congrArg Batch.status (Option.some.inj heq)
    rw [hs] at ho
    split at ho <;> cases ho
  · split <;> rfl
  · split <;> simp_all

@[simp] theorem maybeCompleteBatch_history :
    (db.maybeCompleteBatch batchId tenantId now).1.history = db.history := by
  fun_cases maybeCompleteBatch db batchId tenantId now <;> rfl

/-! ## Outcomes -/

/-- A change of the stored batch from `db` to `after` is honest: no item was
unfinished, and the new status tells whether every item completed. -/
def HonestOutcome (db : Db) (batchId : Uuid) (after : Db) : Prop :=
  ∀ batch, after.batches.lookup batchId = some batch → db.batches.lookup batchId ≠ some batch →
    (∀ r ∈ db.items batchId, r.status.unfinished = false) ∧
      (batch.status = .completed ↔ ∀ r ∈ db.items batchId, r.status = .completed) ∧
      (batch.status = .partiallyCompleted ↔ ∃ r ∈ db.items batchId, r.status ≠ .completed)

/-- The failed items tell whether every item completed. -/
def FailuresTell (db : Db) (batchId : Uuid) : Prop :=
  (∃ r ∈ db.items batchId, r.status = .failed) ∨ ∀ r ∈ db.items batchId, r.status ≠ .interrupted

theorem failuresTell_iff (h : ∀ r ∈ db.items batchId, r.status.unfinished = false) :
    db.FailuresTell batchId ↔ ((∃ r ∈ db.items batchId, r.status ≠ .completed) ↔
      ∃ r ∈ db.items batchId, r.status = .failed) := by
  constructor
  · rintro (⟨r, hr, hf⟩ | hn)
    · exact iff_of_true ⟨r, hr, by simp [hf]⟩ ⟨r, hr, hf⟩
    · refine exists_congr fun r => and_congr_right fun hr => ?_
      have hu := h r hr
      cases hs : r.status <;> simp_all [Status.unfinished]
  · intro hif
    by_cases hf : ∃ r ∈ db.items batchId, r.status = .failed
    · exact .inl hf
    · refine .inr fun r hr hi => hf (hif.mp ⟨r, hr, ?_⟩)
      simp [hi]

theorem honestOutcome_maybeCompleteBatch_iff :
    db.HonestOutcome batchId (db.maybeCompleteBatch batchId tenantId now).1 ↔
      (db.Settleable batchId → db.FailuresTell batchId) := by
  by_cases h : db.Settleable batchId
  · obtain ⟨-, -, -, batch, ha, hn, _, hp⟩ :=
      maybeCompleteBatch_of_settleable h tenantId now
    have hc : batch.status = .completed ↔ ¬ batch.status = .partiallyCompleted := by
      cases hs : batch.status <;> simp_all [BatchStatus.terminal]
    rw [failuresTell_iff h.1, HonestOutcome]
    simp only [h, true_imp_iff, ha, Option.some.injEq, forall_eq']
    constructor
    · intro honest
      exact (honest hn).2.2.symm.trans hp
    · intro ht _
      have hb := hp.trans ht.symm
      refine ⟨h.1, ?_, hb⟩
      rw [hc, hb]
      push Not
      rfl
  · rw [maybeCompleteBatch_of_not_settleable h]
    simp only [h, false_imp_iff, iff_true]
    intro batch ha hn
    exact absurd ha hn

/-! ## Sequences of calls -/

/-- What happens around calls of the completion check: items change their status
or are added, batches are created, and the check is called. -/
inductive BatchEvent
  | items (history : History)
  | create (batchId : Uuid) (batch : Batch)
  | check (batchId tenantId : Uuid) (now : Time)

def batchEvent (db : Db) : BatchEvent → Db × Option BatchCompletionInfo
  | .items history => ({ db with history := history }, none)
  | .create batchId batch =>
    -- the primary key refuses a second batch under the same id
    if batchId ∈ db.batches then (db, none)
    else ({ db with batches := db.batches.insert batchId batch }, none)
  | .check batchId tenantId now => db.maybeCompleteBatch batchId tenantId now

def completions : Db → List BatchEvent → List BatchCompletionInfo
  | _, [] => []
  | db, e :: events => (db.batchEvent e).2.toList ++ completions (db.batchEvent e).1 events

/-- The batch is stored with a terminal status. -/
def Terminal (db : Db) (batchId : Uuid) : Prop :=
  ∃ batch, db.batches.lookup batchId = some batch ∧ batch.status.terminal = true

theorem Terminal.not_settleable (h : db.Terminal batchId) : ¬ db.Settleable batchId := by
  obtain ⟨batch, hb, ht⟩ := h
  rintro ⟨-, batch', hb', ho⟩
  obtain rfl : batch = batch' := Option.some.inj (hb.symm.trans hb')
  simp [ht] at ho

/-- A terminal batch stays terminal and is not reported again. -/
theorem Terminal.batchEvent (h : db.Terminal batchId) (e : BatchEvent) :
    (db.batchEvent e).1.Terminal batchId ∧
      ∀ info ∈ (db.batchEvent e).2, info.batchId ≠ batchId := by
  cases e with
  | items => exact ⟨h, by simp [Db.batchEvent]⟩
  | create other =>
    obtain ⟨stored, hs, ht⟩ := h
    rw [Db.batchEvent]
    split
    · exact ⟨⟨stored, hs, ht⟩, by simp⟩
    · rename_i hf
      have hne : batchId ≠ other := by
        rintro rfl
        exact hf (AList.lookup_isSome.mp (by simp [hs]))
      exact ⟨⟨stored, by rw [AList.lookup_insert_ne hne]; exact hs, ht⟩, by simp⟩
  | check other tenantId now =>
    rw [Db.batchEvent]
    by_cases hne : batchId = other
    · subst hne
      rw [maybeCompleteBatch_of_not_settleable h.not_settleable]
      exact ⟨h, by simp⟩
    · refine ⟨?_, fun info hi heq => ?_⟩
      · fun_cases maybeCompleteBatch db other tenantId now with
        | case4 => rwa [Terminal, AList.lookup_insert_ne hne]
        | _ => exact h
      · by_cases ho : db.Settleable other
        · obtain ⟨info', hi', hid, -⟩ :=
            maybeCompleteBatch_of_settleable ho tenantId now
          obtain rfl : info' = info := Option.some.inj (hi'.symm.trans hi)
          exact hne (heq.symm.trans hid)
        · simp [maybeCompleteBatch_of_not_settleable ho] at hi

theorem terminal_of_reported {e info} (h : info ∈ (db.batchEvent e).2) :
    (db.batchEvent e).1.Terminal info.batchId := by
  cases e with
  | items => simp [batchEvent] at h
  | create =>
    rw [batchEvent] at h
    split at h <;> simp at h
  | check other tenantId now =>
    rw [batchEvent] at h ⊢
    by_cases ho : db.Settleable other
    · obtain ⟨info', hi', hid, batch, ha, -, ht, -⟩ :=
        maybeCompleteBatch_of_settleable ho tenantId now
      obtain rfl : info' = info := Option.some.inj (hi'.symm.trans h)
      exact ⟨batch, hid ▸ ha, ht⟩
    · simp [maybeCompleteBatch_of_not_settleable ho] at h

theorem completions_of_terminal (events : List BatchEvent) (h : db.Terminal batchId) :
    ∀ info ∈ db.completions events, info.batchId ≠ batchId := by
  induction events generalizing db with
  | nil => simp [completions]
  | cons e _ ih =>
    obtain ⟨ht, hr⟩ := h.batchEvent e
    intro info hi
    rw [completions, mem_append, Option.mem_toList] at hi
    exact hi.elim (hr info) (ih ht info)

/-- Over any sequence of events a batch is settled at most once. -/
theorem countP_completions_le_one (db : Db) (events : List BatchEvent) (batchId : Uuid) :
    (db.completions events).countP (·.batchId == batchId) ≤ 1 := by
  induction events generalizing db with
  | nil => simp [completions]
  | cons e events ih =>
    rw [completions]
    cases hr : (db.batchEvent e).2 with
    | none => simpa using ih _
    | some info =>
      by_cases hid : info.batchId = batchId
      · have hl : ((db.batchEvent e).1.completions events).countP
            (·.batchId == batchId) = 0 := by
          rw [countP_eq_zero]
          intro later hm
          have ht := terminal_of_reported hr
          simpa [hid] using completions_of_terminal events ht later hm
        simp [hid, hl]
      · simpa [hid] using ih _

/-- The completion check is honest exactly when it does not settle a batch whose
only unsuccessful items were interrupted, and whatever happens to items and
batches it settles a batch at most once. -/
theorem maybeCompleteBatch_honest_iff (db : Db) (batchId tenantId : Uuid) (now : Time)
    (events : List BatchEvent) :
    (db.HonestOutcome batchId (db.maybeCompleteBatch batchId tenantId now).1 ↔
        (∃ r ∈ db.items batchId, r.status.unfinished = true) ∨
        (∀ batch, db.batches.lookup batchId = some batch → batch.status.terminal = true) ∨
        (∃ r ∈ db.items batchId, r.status = .failed) ∨
        ∀ r ∈ db.items batchId, r.status ≠ .interrupted) ∧
      (db.completions events).countP (·.batchId == batchId) ≤ 1 := by
  refine ⟨?_, countP_completions_le_one db events batchId⟩
  rw [honestOutcome_maybeCompleteBatch_iff, imp_iff_not_or, Settleable, not_and_or, or_assoc]
  refine or_congr ?_ (or_congr ?_ Iff.rfl)
  · simp
  · simp

/-- A batch whose only item was interrupted. -/
def interruptedBatch : Db where
  history :=
    ⟨[{ id := 2, tenantId := 0, hostId := 3, softwareItemId := 4, hostSoftwareItemId := none,
        fromVersion := none, toVersion := some "2", status := .interrupted, output := "",
        outputBytes := 0, executionOwnerServiceId := some 5, executionOwnerInstanceId := none,
        startedAt := some 0, completedAt := some 1, awaitingRestartSince := none, createdAt := 0,
        batchId := some 1, interactive := false, outputTruncated := false,
        preUpdateProtectionStatus := none, preUpdateProtectionSummary := none,
        recoveryHint := none, timeoutSeconds := none }], by decide⟩
  batches := (∅ : AList fun _ : Uuid => Batch).insert 1
    { tenantId := 0, status := .inProgress, totalCount := 1, completedAt := none }

/-- The batch is declared completed although its item is not. -/
theorem interruptedBatch_not_honest :
    ((interruptedBatch.maybeCompleteBatch 1 0 7).1.batches.lookup 1).map Batch.status =
        some .completed ∧
      ¬ interruptedBatch.HonestOutcome 1 (interruptedBatch.maybeCompleteBatch 1 0 7).1 := by
  refine ⟨by decide, fun honest => ?_⟩
  have hc := (honest
    { tenantId := 0, status := .completed, totalCount := 1, completedAt := some 7 }
    (by decide) (by decide)).2.1.mp rfl
  exact absurd hc (by decide)

end Db

end Uptrakit.Update
