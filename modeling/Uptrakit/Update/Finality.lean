import Uptrakit.Update.Step

/-!
# Final outcomes

Every statement of the pipeline that writes a status is conditional on the status
it leaves, with two exceptions: `fail_before_agent_dispatch`, which runs after a
protection phase of minutes, and the failure of a promoted row that could not be
dispatched.  As long as these two do not hit a row that another task has ended
meanwhile, outcomes are final: a completed or failed row keeps its status, and an
interrupted row is only settled by a late result of its owner.
-/

namespace Uptrakit.Update

open Concurrent State

/-- The statements that fail a row whatever its status is. -/
def Write.unconditional : Write → Bool
  | failBeforeAgentDispatch _ _ _ _ | failDispatch _ _ _ => true
  | _ => false

/-- The row ended with a known outcome. -/
def Row.Settled (r : Row) : Prop := r.status = .completed ∨ r.status = .failed

/-- An unconditional failure that the move issues only hits rows that are still
unfinished, or failed already. -/
def FailsLiveRows (c : State) (m : Move Operation Choice) : Prop :=
  ∀ w ∈ c.issued m, w.unconditional = true → ∀ r ∈ c.rows, w.guard r = true →
    r.status.unfinished = true ∨ r.status = .failed

instance (c : State) (m : Move Operation Choice) : Decidable (FailsLiveRows c m) :=
  inferInstanceAs (Decidable (∀ w ∈ c.issued m, _))

/-- The move finalizes the row for its execution owner. -/
def FinalizesForOwner (c : State) (m : Move Operation Choice) (r : Row) : Prop :=
  ∃ args now, (c.issued m = some (.finalizeUpdateResultIfOwned r.id args now) ∨
      c.issued m = some (.finalizeBatchItemIfOwned r.id args now)) ∧
    r.executionOwnerServiceId = some args.serviceId ∧
    r.executionOwnerInstanceId = args.runtimeInstanceId

theorem FinalStatus.settled (s : FinalStatus) : s.toStatus = .completed ∨ s.toStatus = .failed := by
  cases s <;> simp [FinalStatus.toStatus]

variable {r : Row} {c : State} {m : Move Operation Choice}

/-! ## Moves -/

theorem settled_of_move (hm : FailsLiveRows c m) (hr : r ∈ c.rows) (h : r.Settled) :
    ∃ r' ∈ rows (pipeline.move c m), r'.id = r.id ∧ r'.status = r.status := by
  obtain ⟨r', hr', he⟩ := rows_evolve c m hr
  refine ⟨r', hr', he.id_eq, ?_⟩
  cases he with
  | kept => rfl
  | @set w hi hg =>
    have hw (hw : w.unconditional = true) : r.status = .failed := by
      obtain hl | hf := hm w hi hw r hr hg
      · obtain h | h := h <;> simp [h, Status.unfinished] at hl
      · exact hf
    have ha := Write.accepts_of_guard hg
    rw [Write.set_status]
    obtain h | h := h <;> rw [h] at ha hw ⊢ <;> cases w <;>
      simp_all [Write.accepts, Write.target, Write.unconditional]

theorem finalizes_of_move (hm : FailsLiveRows c m) {r'} (hr : r ∈ c.rows)
    (h : r.status = .interrupted) (hr' : r' ∈ rows (pipeline.move c m)) (hid : r'.id = r.id)
    (hc : r'.status ≠ .interrupted) : r'.Settled ∧ FinalizesForOwner c m r := by
  cases evolves_of_id_eq hr hr' hid with
  | kept => exact absurd h hc
  | @set w hi hg =>
    have hw : w.unconditional = false := by
      by_contra hw
      obtain hl | hf := hm w hi (by simpa using hw) r hr hg
      · simp [h, Status.unfinished] at hl
      · simp [h] at hf
    have ha := Write.accepts_of_guard hg
    cases w with
    | finalizeUpdateResultIfOwned id args now =>
      simp only [Write.guard, ownedFinalizableCondition, ownedStatusCondition, Bool.and_eq_true,
        beq_iff_eq] at hg
      obtain ⟨rfl, ⟨-, hs⟩, hin⟩ := hg
      exact ⟨args.status.settled, args, now, .inl hi, hs, hin⟩
    | _ => simp_all [Write.set_status, Write.accepts, Write.target, Write.unconditional]

/-! ## Runs -/

theorem settled_of_run {moves} (hm : pipeline.Meets FailsLiveRows c moves) (hr : r ∈ c.rows)
    (h : r.Settled) : ∃ r' ∈ rows (pipeline.run c moves), r'.id = r.id ∧ r'.status = r.status := by
  induction moves generalizing c r with
  | nil => exact ⟨r, hr, rfl, rfl⟩
  | cons _ _ ih =>
    obtain ⟨r₁, hr₁, hid₁, hs₁⟩ := settled_of_move hm.1 hr h
    obtain ⟨r₂, hr₂, hid₂, hs₂⟩ := ih hm.2 hr₁ (by rwa [Row.Settled, hs₁])
    exact ⟨r₂, hr₂, hid₂.trans hid₁, hs₂.trans hs₁⟩

/-- In every run in which the unconditional failures only hit live rows, a row
that has completed or failed keeps its status to the end, and a row that was
interrupted is only changed by a move that finalizes it for its execution owner,
to completed or failed. -/
theorem outcomes_final (c : State) (moves : List (Move Operation Choice))
    (hmo : pipeline.Meets FailsLiveRows c moves) :
    (∀ before after, moves = before ++ after →
      ∀ r ∈ State.rows (pipeline.run c before), r.Settled →
        ∃ r' ∈ State.rows (pipeline.run c moves), r'.id = r.id ∧ r'.status = r.status) ∧
    ∀ before m after, moves = before ++ m :: after →
      ∀ r ∈ State.rows (pipeline.run c before), r.status = .interrupted →
      ∀ r' ∈ State.rows (pipeline.move (pipeline.run c before) m), r'.id = r.id →
        r'.status ≠ .interrupted →
        r'.Settled ∧ FinalizesForOwner (pipeline.run c before) m r := by
  constructor
  · rintro before after rfl r hr h
    rw [Program.run_append]
    exact settled_of_run (Program.meets_append.mp hmo).2 hr h
  · rintro before m after rfl r hr h r' hr' hid hc
    have hm := (Program.meets_append.mp hmo).2.1
    exact finalizes_of_move hm hr h hr' hid hc

/-- An update that is interrupted by the reaper and completed by the late result
of the agent that claimed it. -/
def lateResult : List (Move Operation Choice) :=
  triggered ++ .start (.updateStarted 1 5 (some 6) false) :: steps 2 2 { linkedHostIds := [7] } ++
    .start .reaperSweep :: steps 3 2 { now := seconds 8000 } ++
    .start (.updateResult 1 ⟨5, some 6, .completed, none, "", none, some "2"⟩ false) ::
      steps 4 1 { linkedHostIds := [7] }

/-- The run keeps to the condition, and its last move finalizes the interrupted
row. -/
theorem outcomes_final_lateResult :
    pipeline.Meets FailsLiveRows initial (lateResult ++ [.run 4 {}]) ∧
      (State.rows (pipeline.run initial lateResult)).map (·.status) = [.interrupted] ∧
      (State.rows (pipeline.run initial (lateResult ++ [.run 4 {}]))).map (·.status) =
        [.completed] ∧
      ∀ r ∈ State.rows (pipeline.run initial lateResult),
        FinalizesForOwner (pipeline.run initial lateResult) (.run 4 {}) r := by
  have hm : pipeline.Meets FailsLiveRows initial (lateResult ++ [.run 4 {}]) := by decide
  refine ⟨hm, by decide, by decide, fun r hr => ?_⟩
  have ha : ∀ r ∈ rows (pipeline.run initial lateResult), r.status = .interrupted ∧
      ∃ r' ∈ rows (pipeline.move (pipeline.run initial lateResult) (.run 4 {})),
        r'.id = r.id ∧ r'.status ≠ .interrupted := by decide
  obtain ⟨hs, r', hr', hid, hc⟩ := ha r hr
  exact ((outcomes_final initial _ hm).2 lateResult (.run 4 {}) [] rfl r hr hs r' hr' hid hc).2

/-- The reaper interrupts an update while its protection runs. -/
def reapedDuringProtection : List (Move Operation Choice) :=
  triggered ++ steps 1 3 { protection := some .error } ++
    .start .reaperSweep :: steps 2 2 { now := seconds 8000 }

/-- When the protection then fails, the interrupted row becomes failed, without a
result of its owner. -/
theorem reapedDuringProtection_not_final :
    ∃ r ∈ State.rows (pipeline.run initial reapedDuringProtection), r.status = .interrupted ∧
      (∃ r' ∈ State.rows (pipeline.move (pipeline.run initial reapedDuringProtection) (.run 1 {})),
        r'.id = r.id ∧ r'.status = .failed) ∧
      ¬ FinalizesForOwner (pipeline.run initial reapedDuringProtection) (.run 1 {}) r := by
  have hi : issued (pipeline.run initial reapedDuringProtection) (.run 1 {}) =
      some (.failBeforeAgentDispatch 1 0 none none) := by decide
  have hro : ∃ r ∈ rows (pipeline.run initial reapedDuringProtection),
      r.status = .interrupted ∧
      ∃ r' ∈ rows (pipeline.move (pipeline.run initial reapedDuringProtection) (.run 1 {})),
        r'.id = r.id ∧ r'.status = .failed := by decide
  obtain ⟨r, hr, hs, hf⟩ := hro
  refine ⟨r, hr, hs, hf, ?_⟩
  rintro ⟨_, _, h | h, -⟩ <;> simp [hi] at h

end Uptrakit.Update
