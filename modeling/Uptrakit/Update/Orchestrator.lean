import Uptrakit.Update.Flow

/-!
# Dispatch by the orchestrator

`run_protection_and_dispatch` takes an update from pending to in progress, runs
its protection and then sends it to the agent.  It does not look at the row again
before it sends: the update goes out for a row that is still in progress exactly
as long as nobody else ends the row during the protection, which may take
minutes.  The recovery on reconnect, the rollout cleanup and the reaper do.
-/

namespace Uptrakit.Update

open Concurrent ProtectionAnswer

namespace Frame

def orchestrated : Frame → List Uuid
  | prepareProtection (.orchestrator id) | recordProtection (.orchestrator id) _
  | dispatchUpdateToAgent (.orchestrator id) => [id]
  | _ => []

end Frame

/-- The row that the frame orchestrates is in progress. -/
def OrchestratesLive (world : World) (f : Frame) : Prop :=
  ∀ id ∈ f.orchestrated, ∃ r ∈ world.db.history.rows, r.id = id ∧ r.status = .inProgress

/-- Recording a protection that did not fail keeps the status of every row. -/
theorem ProtectionAnswer.target_write {answer : ProtectionAnswer} (h : answer.failed = false)
    (id now) : (answer.write id now).target = none := by
  cases answer with
  | error => cases h
  | decision =>
    simp only [failed, Bool.and_eq_false_iff, Bool.not_eq_eq_eq_not, Bool.not_false] at h
    simp only [write]
    split
    · rfl
    · rw [if_pos (h.resolve_left (by simp_all))]
      rfl

variable {db db' : Db} {n : Nat}

theorem inProgress_of_execute {s id} (he : db.execute s = .ok (db', n))
    (hs : ∀ w ∈ s.write?, w.target = none)
    (h : ∃ r ∈ db.history.rows, r.id = id ∧ r.status = .inProgress) :
    ∃ r ∈ db'.history.rows, r.id = id ∧ r.status = .inProgress := by
  refine Db.exists_of_execute he ?_ h
  rintro w hw r ⟨hid, hst⟩
  refine ⟨(w.row_id r).trans hid, ?_⟩
  by_contra hne
  have ht := (Write.of_row_status_ne (hst ▸ hne)).2
  simp [hs w hw] at ht

/-- A frame that orchestrates a row got it from the compare-and-set, or from a
frame that orchestrated it and did not write a status. -/
theorem orchestratesLive_of_leads {ω} {f : Frame} {g log log'}
    (he : db.execute (f.statement ω) = .ok (db', n)) (h : f.Leads ω db n g)
    (hf : OrchestratesLive ⟨db, log⟩ f) : OrchestratesLive ⟨db', log'⟩ g := by
  intro id hid
  cases h
  case inProgress id' hn =>
    obtain rfl := List.mem_singleton.mp hid
    obtain ⟨r, -, hg, hs⟩ := Db.exists_of_affected he hn
    refine ⟨_, hs, ?_, rfl⟩
    rw [Write.set_id]
    simpa using (Bool.and_eq_true_iff.mp hg).1
  case unprotected caller | protection caller _ =>
    cases caller with
    | orchestrator =>
      exact inProgress_of_execute he (by simp [Frame.statement, Statement.write?]) (hf id hid)
    | promotion | batch => cases hid
  case protectionDone caller answer hok =>
    cases caller with
    | orchestrator =>
      refine inProgress_of_execute he ?_ (hf id hid)
      rintro w hw
      obtain rfl := Option.some.inj hw
      exact target_write hok _ _
    | promotion | batch => cases hid
  all_goals cases hid

theorem orchestratesLive_move (c : State) (m : Move Operation Choice)
    (hc : ∀ f ∈ c.frames, OrchestratesLive c.shared f) (hm : Undisturbed Frame.orchestrated c m) :
    ∀ f ∈ (pipeline.move c m).frames, OrchestratesLive (pipeline.move c m).shared f := by
  refine Program.frames_invariant ?_ ?_ ?_ c m hc hm
  · intro world operation
    cases operation <;> rintro id ⟨⟩
  · intro c i ω f hc ht _ g hg
    obtain ⟨_, n, he, hs, hl⟩ | ⟨_, -, rfl, -⟩ := mem_step hg
    · rw [show pipeline.step = step from rfl, hs]
      exact orchestratesLive_of_leads he hl (hc f (Config.mem_frames_of_top ht))
    · rintro id ⟨⟩
  · intro c i ω f _ ht hm g hg hli id hid
    exact status_of_undisturbed ht hm hg hid (hli id hid)

/-- In every run in which no other task changes the status of a row between the
compare-and-set of its orchestrator and the dispatch, every row that an
orchestrator is about to dispatch is in the table and pending or in progress. -/
theorem dispatched_rows_unfinished (moves : List (Move Operation Choice))
    (hm : pipeline.Meets (Undisturbed Frame.orchestrated) initial moves) {id : Uuid}
    (hid : .dispatchUpdateToAgent (.orchestrator id) ∈ (pipeline.run initial moves).frames) :
    (∃ r ∈ State.rows (pipeline.run initial moves), r.id = id) ∧
      ∀ r ∈ State.rows (pipeline.run initial moves), r.id = id →
        r.status = .pending ∨ r.status = .inProgress := by
  have hl := Program.run_invariant (P := pipeline) orchestratesLive_move
    (by rintro f ⟨⟩) hm _ hid
  obtain ⟨r, hr, hri, hs⟩ := hl id (List.mem_singleton.mpr rfl)
  refine ⟨⟨r, hr, hri⟩, fun r' hr' hri' => .inr ?_⟩
  rw [eq_of_id_eq hr' hr (hri'.trans hri.symm), hs]

/-- The protection of the triggered update has succeeded; its orchestrator, task
1, is about to dispatch it. -/
def protectedUpdate : List (Move Operation Choice) :=
  triggered ++ steps 1 4 { protection := some (.decision ⟨true, true, some "ok", none⟩) }

/-- Undisturbed, the update is dispatched while it is in progress. -/
theorem dispatched_protectedUpdate :
    ∃ r ∈ State.rows (pipeline.run initial protectedUpdate), r.id = 1 ∧
      (r.status = .pending ∨ r.status = .inProgress) := by
  have ht : (pipeline.run initial protectedUpdate).top 1 =
      some (.dispatchUpdateToAgent (.orchestrator 1)) := rfl
  obtain ⟨⟨r, hr, hid⟩, ha⟩ :=
    dispatched_rows_unfinished protectedUpdate (by decide) (Config.mem_frames_of_top ht)
  exact ⟨r, hr, hid, ha r hr hid⟩

/-- The agent of host 7 reconnects while the protection runs: the recovery takes
the row for one whose orchestrator is gone. -/
def reconnectDuringProtection : List (Move Operation Choice) :=
  triggered ++ steps 1 3 { protection := some (.decision ⟨true, true, some "ok", none⟩) } ++
    .start (.reconnect 9 none .immediate) :: steps 2 3 { linkedHostIds := [7] } ++ steps 1 1 {}

/-- The orchestrator dispatches the update although it has failed. -/
theorem reconnectDuringProtection_dispatches_failed :
    .dispatchUpdateToAgent (.orchestrator 1) ∈
        (pipeline.run initial reconnectDuringProtection).frames ∧
      (State.rows (pipeline.run initial reconnectDuringProtection)).map
        (fun r => (r.id, r.status)) = [(1, .failed)] := by
  have ht : (pipeline.run initial reconnectDuringProtection).top 1 =
      some (.dispatchUpdateToAgent (.orchestrator 1)) := rfl
  exact ⟨Config.mem_frames_of_top ht, by decide⟩

end Uptrakit.Update
