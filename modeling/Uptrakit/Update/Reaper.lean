import Uptrakit.Update.Flow

/-!
# The reaper

`reap_overdue_updates` selects the overdue rows, updates those that are still in
progress, and returns the rows it selected.  The two statements share a
transaction, but under read committed isolation each of them sees what others
have committed by then: a row that its agent finished in between is returned, and
published as interrupted, although the update did not touch it.
-/

namespace Uptrakit.Update

open Concurrent List

namespace Frame

/-- The rows that a call of the reaper has selected and is about to update. -/
def selected : Frame → List Uuid
  | reapOverdue _ overdue => overdue.map (·.id)
  | reapStalledPending _ _ candidates => candidates.map (·.id)
  | _ => []

def selectedStatus : Frame → Status
  | reapOverdue _ _ => .inProgress
  | _ => .pending

def reapedRows : Frame → List Row
  | listStalledPending _ reaped | selectStalledPending _ reaped _ => reaped
  | reapStalledPending _ reaped _ | publishReaped reaped _ => reaped
  | _ => []

def pendingReapedRows : Frame → List Row
  | publishReaped _ pendingReaped => pendingReaped
  | _ => []

end Frame

/-! ## Selected rows -/

/-- The rows that the frame has selected are still in the status it selected. -/
def SelectionLive (world : World) (f : Frame) : Prop :=
  ∀ id ∈ f.selected, ∃ r ∈ world.db.history.rows, r.id = id ∧ r.status = f.selectedStatus

variable {moves : List (Move Operation Choice)} {ω : Choice} {f : Frame}
  {ok : State → Move Operation Choice → Prop}

/-- While no other task changes the status of a selected row, every selection in
flight stays live. -/
theorem selectionLive_of_run (hmo : pipeline.Meets (Undisturbed Frame.selected) initial moves) :
    ∀ f ∈ (pipeline.run initial moves).frames,
      SelectionLive (pipeline.run initial moves).shared f := by
  refine Program.run_invariant (P := pipeline) (Program.frames_invariant ?_ ?_ ?_) ?_ hmo
  · intro world operation id hid
    cases operation <;> cases hid
  · intro c i ω f _ _ _ g hg id hid
    obtain ⟨_, _, -, -, hl⟩ | ⟨_, -, rfl, -⟩ := mem_step hg
    · cases hl
      case overdue | stillPending =>
        obtain ⟨r, hr, rfl⟩ := mem_map.mp hid
        obtain ⟨hr, ht⟩ := mem_filter.mp hr
        exact ⟨r, hr, rfl, by simp_all [Row.overdue, Frame.selectedStatus]⟩
      all_goals cases hid
    · cases hid
  · intro c i ω f _ hto hm g hg hli id hid
    exact status_of_undisturbed hto hm hg hid (hli id hid)
  · intro f hf
    cases hf

/-- The row went from one status to interrupted in the move. -/
def Interrupts (c : State) (m : Move Operation Choice) (id : Uuid) (s : Status) : Prop :=
  (∃ r ∈ c.rows, r.id = id ∧ r.status = s) ∧
    ∃ r ∈ State.rows (pipeline.move c m), r.id = id ∧ r.status = .interrupted

/-! ## Published rows -/

/-- The log says that the first of the reaper's calls returned the row. -/
def LoggedOverdue (log : List Event) (id : Uuid) : Prop :=
  ∃ ids, .overdueReaped ids ∈ log ∧ id ∈ ids

/-- The log says that the second of the reaper's calls returned the row. -/
def LoggedPending (log : List Event) (id : Uuid) : Prop :=
  ∃ ids, .pendingReaped ids ∈ log ∧ id ∈ ids

/-- The rows that the frame is to publish were returned by the reaper's calls. -/
def Reported (world : World) (f : Frame) : Prop :=
  (∀ r ∈ f.reapedRows, LoggedOverdue world.log r.id) ∧
    ∀ r ∈ f.pendingReapedRows, LoggedPending world.log r.id

theorem Reported.mono {world} {world' : World} (h : Reported world f)
    (hl : world.log ⊆ world'.log) :
    Reported world' f := by
  constructor
  · intro r hr
    obtain ⟨ids, hi, hm⟩ := h.1 r hr
    exact ⟨ids, hl hi, hm⟩
  · intro r hr
    obtain ⟨ids, hi, hm⟩ := h.2 r hr
    exact ⟨ids, hl hi, hm⟩

/-- A frame hands its reaped rows on, or has just logged them. -/
theorem reported_of_leads {db db' : Db} {n : Nat} {g : Frame} {log : List Event}
    (h : f.Leads ω db n g) (hf : ∀ db, Reported ⟨db, log⟩ f) :
    Reported ⟨db', log ++ (f.next ω db n).events⟩ g := by
  have hf' : Reported ⟨db', log ++ (f.next ω db n).events⟩ f :=
    (hf db').mono (subset_append_left _ _)
  cases h
  case reaped now overdue =>
    refine ⟨fun r hr => ⟨overdue.map (·.id), ?_, mem_map_of_mem hr⟩, by rintro r ⟨⟩⟩
    exact mem_append_right _ (mem_singleton.mpr rfl)
  case nothingStalled | stalled | nothingPending | stillPending =>
    exact ⟨hf'.1, by rintro r ⟨⟩⟩
  case pendingReaped now reaped candidates =>
    refine ⟨hf'.1, fun r hr => ⟨candidates.map (·.id), ?_, mem_map_of_mem hr⟩⟩
    exact mem_append_right _ (mem_singleton.mpr rfl)
  all_goals exact ⟨fun r hr => (by cases hr), fun r hr => (by cases hr)⟩

theorem reported_move :
    ∀ (c : State) (m : Move Operation Choice), (∀ f ∈ c.frames, Reported c.shared f) → ok c m →
      ∀ f ∈ (pipeline.move c m).frames, Reported (pipeline.move c m).shared f := by
  refine Program.frames_invariant ?_ ?_ ?_
  · intro world operation
    cases operation <;> exact ⟨fun r hr => (by cases hr), fun r hr => (by cases hr)⟩
  · intro c i ω f hc ht _ g hg
    obtain ⟨db, n, _, hs, hl⟩ | ⟨_, -, rfl, -⟩ := mem_step hg
    · rw [show pipeline.step = step from rfl, hs]
      exact reported_of_leads hl fun db => hc f (Config.mem_frames_of_top ht)
    · exact ⟨fun r hr => (by cases hr), fun r hr => (by cases hr)⟩
  · intro c i ω f _ _ _ g _ hg
    exact hg.mono (log_step_subset ω c.shared f)

/-- What the reaper has published, its calls returned. -/
def PublishedReaped (c : State) : Prop :=
  (∀ f ∈ c.frames, Reported c.shared f) ∧
    ∀ id, .interruptedPublished id ∈ c.shared.log →
      LoggedOverdue c.shared.log id ∨ LoggedPending c.shared.log id

/-- Run lemma: what is published as interrupted was logged as overdue or pending. -/
theorem publishedReaped_of_run (hmo : pipeline.Meets ok initial moves) :
    PublishedReaped (pipeline.run initial moves) := by
  refine Program.run_invariant (P := pipeline) ?_ ?_ hmo
  · rintro c m ⟨hr, hl⟩ hm
    refine ⟨reported_move c m hr hm, fun id hid => ?_⟩
    rw [log_move] at hid ⊢
    obtain hid | hid := mem_append.mp hid
    · exact (hl id hid).imp (fun ⟨ids, hi, hme⟩ => ⟨ids, mem_append_left _ hi, hme⟩)
        (fun ⟨ids, hi, hme⟩ => ⟨ids, mem_append_left _ hi, hme⟩)
    · obtain ⟨i, ω, f, _, n, rfl, ht, -, he⟩ := emits_of_mem_emitted hid
      have hf := hr f (Config.mem_frames_of_top ht)
      cases he with
      | interruptedPublished _ _ row hro =>
        obtain hro | hro := mem_append.mp hro
        · obtain ⟨ids, hi, hme⟩ := hf.1 row hro
          exact .inl ⟨ids, mem_append_left _ hi, hme⟩
        · obtain ⟨ids, hi, hme⟩ := hf.2 row hro
          exact .inr ⟨ids, mem_append_left _ hi, hme⟩
  · exact ⟨fun f hf => (by cases hf), fun id hid => (by cases hid)⟩

/-- In every run in which no other task changes the status of a row between its
selection by the reaper and the reaper's update, every row that the reaper's
calls return was interrupted by that call, and every row that the reaper
publishes was returned by one of its calls. -/
theorem reaper_reports_what_it_did (moves : List (Move Operation Choice))
    (hm : pipeline.Meets (Undisturbed Frame.selected) initial moves) :
    (∀ before m after, moves = before ++ m :: after → ∀ ids,
      (.overdueReaped ids ∈ State.emitted (pipeline.run initial before) m →
        ∀ id ∈ ids, Interrupts (pipeline.run initial before) m id .inProgress) ∧
      (.pendingReaped ids ∈ State.emitted (pipeline.run initial before) m →
        ∀ id ∈ ids, Interrupts (pipeline.run initial before) m id .pending)) ∧
    ∀ id, .interruptedPublished id ∈ (pipeline.run initial moves).shared.log →
      LoggedOverdue (pipeline.run initial moves).shared.log id ∨
        LoggedPending (pipeline.run initial moves).shared.log id := by
  constructor
  · rintro before m after rfl ids
    have hl := selectionLive_of_run (Program.meets_append.mp hm).1
    constructor
    all_goals
      intro he id hid
      obtain ⟨i, ω, f, db, n, rfl, ht, hex, hem⟩ := emits_of_mem_emitted he
      cases hem
      obtain ⟨r, hr, rfl, hs⟩ := hl _ (Config.mem_frames_of_top ht) id hid
      refine ⟨⟨r, hr, rfl, hs⟩, ?_⟩
      rw [rows_move ht hex]
      refine ⟨_, mem_map.mpr ⟨r, hr, if_pos ?_⟩, Write.set_id _ r, rfl⟩
      simp only [Frame.selectedStatus] at hs
      simp [Write.guard, hs, hid]
  · exact (publishedReaped_of_run hm).2

/-- An update is claimed and overdue; the reaper, task 3, has selected it. -/
def overdueSelected : List (Move Operation Choice) :=
  triggered ++ .start (.updateStarted 1 5 (some 6) false) :: steps 2 2 { linkedHostIds := [7] } ++
    .start .reaperSweep :: steps 3 1 { now := seconds 8000 }

/-- The reaper interrupts the update and publishes it. -/
theorem reaper_reports_overdueSelected :
    Interrupts (pipeline.run initial overdueSelected) (.run 3 {}) 1 .inProgress ∧
      (LoggedOverdue (pipeline.run initial (overdueSelected ++ steps 3 3 {})).shared.log 1 ∨
        LoggedPending (pipeline.run initial (overdueSelected ++ steps 3 3 {})).shared.log 1) := by
  have hm : pipeline.Meets (Undisturbed Frame.selected) initial
      (overdueSelected ++ steps 3 3 {}) := by decide
  obtain ⟨hr, hp⟩ := reaper_reports_what_it_did _ hm
  constructor
  · exact (hr overdueSelected (.run 3 {}) (steps 3 2 {}) rfl [1]).1 (by decide) 1 (by decide)
  · exact hp 1 (by decide)

/-- The agent finishes the update between the selection and the update of the
reaper. -/
def finishedBeforeReap : List (Move Operation Choice) :=
  overdueSelected ++
    .start (.updateResult 1 ⟨5, some 6, .completed, none, "", none, some "2"⟩ false) ::
      steps 4 2 { linkedHostIds := [7] }

/-- The reaper returns the completed update and publishes it as interrupted. -/
theorem finishedBeforeReap_misreported :
    .overdueReaped [1] ∈ State.emitted (pipeline.run initial finishedBeforeReap) (.run 3 {}) ∧
      ¬ Interrupts (pipeline.run initial finishedBeforeReap) (.run 3 {}) 1 .inProgress ∧
      (State.rows (pipeline.run initial (finishedBeforeReap ++ steps 3 3 {}))).map (·.status) =
        [.completed] ∧
      .interruptedPublished 1 ∈
        (pipeline.run initial (finishedBeforeReap ++ steps 3 3 {})).shared.log := by
  refine ⟨by decide, ?_, by decide, by decide⟩
  rintro ⟨⟨r, _, -, _⟩, -⟩
  revert r
  decide

/-! ## Deadlines

`reap_overdue_updates` alone, for any default budget and any grace.  The sum of two durations panics
when it does not fit a `std::time::Duration`. -/

/-- The bound of a `std::time::Duration`, in nanoseconds. -/
def durationBound : Nat := 2 ^ 64 * 10 ^ 9

def minTime : Time := -377705116800000000000

/-- `time::Duration::try_from`, for a `std::time::Duration`. -/
def timeDuration (d : Nat) : Option Int := if d < 2 ^ 63 * 10 ^ 9 then some d else none

/-- `OffsetDateTime::checked_add`. -/
def checkedAdd (t : Time) (d : Int) : Option Time :=
  if minTime ≤ t + d ∧ t + d ≤ maxTime then some (t + d) else none

/-- The budget of a row; a negative one does not count. -/
def Row.budgetOr (defaultBudget : Nat) (r : Row) : Nat :=
  match r.timeoutSeconds with
  | some (.ofNat s) => min s maxBudgetSecs.toNat * 10 ^ 9
  | _ => defaultBudget

/-- The test of a row that is in progress; `none` is a panic. -/
def Row.overdue? (now : Time) (defaultBudget grace : Nat) (r : Row) : Option Bool :=
  match r.startedAt with
  | none => some false
  | some started =>
    if r.budgetOr defaultBudget + grace < durationBound then
      some (((timeDuration (r.budgetOr defaultBudget + grace)).bind (checkedAdd started)).all
        fun deadline => decide (deadline < now))
    else none

/-- `reap_overdue_updates`: the table, and the rows that it returns. -/
def reapOverdueUpdates (history : History) (now : Time) (defaultBudget grace : Nat) :
    Option (List Row × List Row) :=
  let rows := history.rows.filter fun r => r.status == .inProgress && r.startedAt.isSome
  let overdue := rows.filter fun r => r.overdue? now defaultBudget grace == some true
  let w := Write.reapOverdueUpdates (overdue.map (·.id)) now
  if rows.all fun r => (r.overdue? now defaultBudget grace).isSome then
    some (history.rows.map w.row, overdue.map w.set)
  else none

/-- In progress, started, and with a deadline that is past or later than any time. -/
def Row.pastDeadline (now : Time) (defaultBudget grace : Nat) (r : Row) : Bool :=
  r.status == .inProgress && r.startedAt.any fun started =>
    decide (maxTime < started + (r.budgetOr defaultBudget + grace : Nat)) ||
      decide (started + (r.budgetOr defaultBudget + grace : Nat) < now)

variable {history : History} {now : Time} {defaultBudget grace : Nat}

theorem overdue?_eq_some {r : Row} {started : Time} (hst : r.startedAt = some started)
    (hm : minTime ≤ started) (hf : r.budgetOr defaultBudget + grace < durationBound) :
    r.overdue? now defaultBudget grace =
      some (decide (maxTime < started + (r.budgetOr defaultBudget + grace : Nat)) ||
        decide (started + (r.budgetOr defaultBudget + grace : Nat) < now)) := by
  rw [Row.overdue?, hst]
  dsimp only
  rw [if_pos hf]
  generalize r.budgetOr defaultBudget + grace = d
  by_cases hs : d < 2 ^ 63 * 10 ^ 9
  · rw [timeDuration, if_pos hs, Option.bind_some, checkedAdd]
    by_cases hl : maxTime < started + d
    · rw [if_neg fun h => absurd hl (not_lt.mpr h.2), decide_eq_true hl]
      rfl
    · rw [if_pos ⟨hm.trans (Int.le_add_of_nonneg_right (Int.natCast_nonneg d)), not_lt.mp hl⟩,
        decide_eq_false hl]
      rfl
  · -- what does not fit a `time::Duration` is longer than all of the time
    have hl : maxTime < started + d := by
      have hr : maxTime < minTime + 2 ^ 63 * 10 ^ 9 := by decide
      have hlo : (2 ^ 63 * 10 ^ 9 : Int) ≤ d := by exact_mod_cast not_lt.mp hs
      exact hr.trans_le (Int.add_le_add hm hlo)
    rw [timeDuration, if_neg hs, decide_eq_true hl]
    rfl

def Row.reaped (now : Time) (r : Row) : Row := (Write.reapOverdueUpdates [] now).set r

/-- If the grace fits with the default budget and with thirty days, the call does not panic, and
reaps exactly the rows past their deadline. -/
theorem reap_exact (hd : defaultBudget + grace < durationBound)
    (hma : maxBudgetSecs.toNat * 10 ^ 9 + grace < durationBound)
    (hm : ∀ r ∈ history.rows, ∀ started ∈ r.startedAt, minTime ≤ started) :
    reapOverdueUpdates history now defaultBudget grace =
      some (history.rows.map fun r =>
          if r.pastDeadline now defaultBudget grace then r.reaped now else r,
        (history.rows.filter (·.pastDeadline now defaultBudget grace)).map (·.reaped now)) := by
  have hf : ∀ r : Row, r.budgetOr defaultBudget + grace < durationBound := by
    intro r
    unfold Row.budgetOr
    split
    · refine lt_of_le_of_lt (Nat.add_le_add_right (Nat.mul_le_mul_right _ ?_) _) hma
      exact Nat.min_le_right ..
    · exact hd
  have ho : (history.rows.filter fun r => r.status == .inProgress && r.startedAt.isSome).filter
      (fun r => r.overdue? now defaultBudget grace == some true) =
        history.rows.filter (·.pastDeadline now defaultBudget grace) := by
    rw [filter_filter]
    refine filter_congr fun r hr => ?_
    cases hs : r.startedAt with
    | none => simp [Row.pastDeadline, hs]
    | some started =>
      rw [overdue?_eq_some hs (hm r hr started hs) (hf r)]
      simp [Row.pastDeadline, hs, Bool.and_comm]
  unfold reapOverdueUpdates
  simp only [ho]
  rw [if_pos]
  · refine congrArg some (Prod.ext (map_congr_left fun r hr => ?_) rfl)
    refine if_congr ?_ rfl rfl
    simp only [Write.guard, Bool.and_eq_true, contains_iff_mem, mem_map, mem_filter]
    constructor
    · rintro ⟨⟨r', ⟨hr', hp⟩, hid⟩, -⟩
      rwa [← eq_of_id_eq hr' hr hid]
    · intro hp
      exact ⟨⟨r, ⟨hr, hp⟩, rfl⟩, (Bool.and_eq_true_iff.mp hp).1⟩
  · refine all_eq_true.mpr fun r hr => ?_
    obtain ⟨hr, hro⟩ := mem_filter.mp hr
    obtain ⟨started, hs⟩ := Option.isSome_iff_exists.mp (Bool.and_eq_true_iff.mp hro).2
    rw [overdue?_eq_some hs (hm r hr started hs) (hf r)]
    rfl

/-- An update with a budget of two hours, started at time 0. -/
def budgeted : History := (pipeline.run initial overdueSelected).shared.db.history

/-- The longest grace fits with no default budget, and not with a budget of its own. -/
theorem reap_panics : 0 + (durationBound - 1) < durationBound ∧
    reapOverdueUpdates budgeted 0 0 (durationBound - 1) = none := by
  decide

theorem reap_exact_budgeted : 0 + 0 < durationBound ∧
    maxBudgetSecs.toNat * 10 ^ 9 + 0 < durationBound ∧
    reapOverdueUpdates budgeted (seconds 7201) 0 0 =
      some (budgeted.rows.map (·.reaped (seconds 7201)),
        budgeted.rows.map (·.reaped (seconds 7201))) :=
  ⟨by decide, by decide, (reap_exact (by decide) (by decide) (by decide)).trans (by decide)⟩

end Uptrakit.Update
