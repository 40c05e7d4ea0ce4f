import Uptrakit.Data.Except
import Uptrakit.Update.Machine

/-!
# What a step does to the tables

A step either executes the statement of its frame or, if the statement is
refused, leaves the database as it is (`step_cases`).  What a move does to a row
is said once (`rows_evolve`): the row is kept, or one statement matches and sets
it.
-/

namespace Uptrakit.Update

open Concurrent Data Program List

abbrev State := Config World Frame

/-- The rows of `update_history`. -/
def State.rows (c : State) : List Row := c.shared.db.history.rows

/-- Rows of a table are told apart by their ids. -/
theorem eq_of_id_eq {history : History} {a b} (ha : a ∈ history.rows) (hb : b ∈ history.rows)
    (h : a.id = b.id) : a = b :=
  history.valid.eq_of_clash ha hb (.inl h)

def Statement.write? : Statement → Option Write
  | write w => some w
  | _ => none

namespace Db

variable {db db' : Db} {n : Nat} {s : Statement} {w : Write}

theorem rows_of_execute (h : db.execute s = .ok (db', n)) :
    db'.history.rows = s.rows db.history.rows := by
  cases s with
  | read =>
    cases h
    rfl
  | insert | write =>
    obtain ⟨history, hh, h⟩ := bind_eq_ok.mp h
    cases h
    exact Table.rows_of_ofRows hh
  | insertBatch =>
    rw [execute] at h
    split at h
    · cases h
    · obtain ⟨history, hh, h⟩ := bind_eq_ok.mp h
      cases h
      exact Table.rows_of_ofRows hh
  | completeBatch =>
    cases h
    exact congrArg Table.rows maybeCompleteBatch_history

/-- The number of affected rows tells whether a statement matched. -/
theorem affected_eq_zero_iff (h : db.execute (.write w) = .ok (db', n)) :
    n = 0 ↔ ∀ r ∈ db.history.rows, w.guard r = false := by
  obtain ⟨_, -, h⟩ := bind_eq_ok.mp h
  cases h
  rw [Table.affected]
  simp [Write.toUpdate]

theorem exists_of_affected (h : db.execute (.write w) = .ok (db', n)) (hn : n ≠ 0) :
    ∃ r ∈ db.history.rows, w.guard r = true ∧ w.set r ∈ db'.history.rows := by
  have hm : ∃ r ∈ db.history.rows, w.guard r = true := by
    by_contra hno
    push Not at hno
    exact hn ((affected_eq_zero_iff h).mpr fun r hr => by simpa using hno r hr)
  obtain ⟨r, hr, hg⟩ := hm
  refine ⟨r, hr, hg, ?_⟩
  rw [rows_of_execute h]
  exact mem_map.mpr ⟨r, hr, by rw [Write.row, if_pos hg]⟩

/-- Of the updates only a promotion is refused, when another row blocks the
host. -/
theorem of_write_error {v} (h : db.execute (.write w) = .error v) :
    ∃ r ∈ db.history.rows, w = .promote r.id ∧ r.status = .queued ∧
      ∃ r' ∈ db.history.rows, r'.hostId = r.hostId ∧ r'.status.hostBlocking = true := by
  have hi : ¬ NoClash (db.history.rows.map w.row) := by
    rw [execute] at h
    cases hu : db.history.update w.toUpdate with
    | error => exact Table.ofRows_error hu
    | ok =>
      rw [hu] at h
      cases h
  by_contra hn
  refine hi (pairwise_map.mpr (db.history.valid.imp_of_mem ?_))
  intro a b ha hb hc hc'
  obtain h | ⟨hh, ⟨hw, hq, hbl⟩ | ⟨hw, hq, hbl⟩⟩ := hc'.of_row
  · exact hc h
  · exact hn ⟨a, ha, hw, hq, b, hb, hh.symm, hbl⟩
  · exact hn ⟨b, hb, hw, hq, a, ha, hh, hbl⟩

/-- What an update keeps of a row, every statement keeps of some row. -/
theorem exists_of_execute {P : Row → Prop} (h : db.execute s = .ok (db', n))
    (keeps : ∀ w ∈ s.write?, ∀ r, P r → P (w.row r)) (hP : ∃ r ∈ db.history.rows, P r) :
    ∃ r ∈ db'.history.rows, P r := by
  obtain ⟨r, hr, hP⟩ := hP
  rw [rows_of_execute h]
  cases s with
  | read | completeBatch => exact ⟨r, hr, hP⟩
  | insert | insertBatch => exact ⟨r, mem_append_left _ hr, hP⟩
  | write w => exact ⟨w.row r, mem_map_of_mem hr, keeps w rfl r hP⟩

end Db

/-- A step executes its statement, or is refused and changes nothing. -/
theorem step_cases (ω : Choice) (world : World) (f : Frame) :
    (∃ db n, world.db.execute (f.statement ω) = .ok (db, n) ∧
      step ω world f =
        { shared := { db := db, log := world.log ++ (f.next ω world.db n).events }
          frames := (f.next ω world.db n).frames
          spawned := (f.next ω world.db n).spawned }) ∨
    ∃ v, world.db.execute (f.statement ω) = .error v ∧
      step ω world f = { shared := world, frames := f.refused } := by
  unfold step
  cases h : world.db.execute (f.statement ω) with
  | ok result => exact .inl ⟨result.1, result.2, rfl, rfl⟩
  | error v => exact .inr ⟨v, rfl, rfl⟩

variable {c : State} {i n : Nat} {ω : Choice} {f : Frame} {db : Db} {r : Row}
  {m : Move Operation Choice}

variable (htop : c.top i = some f)

include htop

variable (hexec : c.shared.db.execute (f.statement ω) = .ok (db, n))

include hexec

/-- The shared state after a move whose statement is executed. -/
theorem shared_move :
    (pipeline.move c (.run i ω)).shared =
      { db := db, log := c.shared.log ++ (f.next ω c.shared.db n).events } := by
  rw [(move_run_of_top (P := pipeline) ω htop).1]
  change (step ω c.shared f).shared = _
  rw [step, hexec]

/-- The frames after a move whose statement is executed. -/
theorem frames_move :
    (pipeline.move c (.run i ω)).frames.Perm
      ((f.next ω c.shared.db n).frames ++ (f.next ω c.shared.db n).spawned ++ c.others i) := by
  refine (move_run_of_top (P := pipeline) ω htop).2.trans ?_
  change List.Perm ((step ω c.shared f).frames ++ (step ω c.shared f).spawned ++ _) _
  rw [step, hexec]

theorem rows_move : State.rows (pipeline.move c (.run i ω)) = (f.statement ω).rows c.rows := by
  rw [State.rows, shared_move htop hexec]
  exact Db.rows_of_execute hexec

omit hexec

/-- A move whose statement is refused changes no table and no log. -/
theorem refused_move {v} (he : c.shared.db.execute (f.statement ω) = .error v) :
    (pipeline.move c (.run i ω)).shared = c.shared ∧
      (pipeline.move c (.run i ω)).frames.Perm (f.refused ++ c.others i) := by
  have hs : pipeline.step ω c.shared f = { shared := c.shared, frames := f.refused } := by
    change step ω c.shared f = _
    rw [step, he]
  have hm := move_run_of_top (P := pipeline) ω htop
  rw [hs, append_nil] at hm
  exact hm

omit htop

/-- The update on `update_history` that a move issues, if it issues one. -/
def State.issued (c : State) : Move Operation Choice → Option Write
  | .start _ => none
  | .run i ω => (c.top i).bind fun f => (f.statement ω).write?

def State.emitted (c : State) : Move Operation Choice → List Event
  | .start _ => []
  | .run i ω =>
    match c.top i with
    | none => []
    | some f =>
      match c.shared.db.execute (f.statement ω) with
      | .ok (_, n) => (f.next ω c.shared.db n).events
      | .error _ => []

theorem log_move (c : State) (m : Move Operation Choice) :
    (pipeline.move c m).shared.log = c.shared.log ++ c.emitted m := by
  cases m with
  | start => simp [State.emitted]
  | run i ω =>
    cases htop : c.top i with
    | none =>
      rw [move_run_of_top_none htop]
      simp [State.emitted, htop]
    | some f =>
      rw [(move_run_of_top (P := pipeline) ω htop).1, show pipeline.step = step from rfl]
      simp only [State.emitted, htop]
      obtain ⟨_, n, hexec, hs⟩ | ⟨v, hexec, hs⟩ := step_cases ω c.shared f
      · simp only [hexec, hs]
      · simp only [hexec, hs, append_nil]

/-- The fate of a row in a move: it is kept, or the update that the move issues
matches it and sets it. -/
inductive Evolves (c : State) (m : Move Operation Choice) (r : Row) : Row → Prop
  | kept : Evolves c m r r
  | set {w} (issued : c.issued m = some w) (guard : w.guard r = true) : Evolves c m r (w.set r)

theorem rows_evolve (c : State) (m : Move Operation Choice) (hr : r ∈ c.rows) :
    ∃ r' ∈ State.rows (pipeline.move c m), Evolves c m r r' := by
  cases m with
  | start => exact ⟨r, hr, .kept⟩
  | run i ω =>
    cases htop : c.top i with
    | none =>
      rw [move_run_of_top_none htop]
      exact ⟨r, hr, .kept⟩
    | some f =>
      have hsh := (move_run_of_top (P := pipeline) ω htop).1
      rw [State.rows, hsh, show pipeline.step = step from rfl]
      obtain ⟨_, n, hexec, hst⟩ | ⟨v, -, hst⟩ := step_cases ω c.shared f
      · rw [hst]
        simp only [Db.rows_of_execute hexec]
        cases hs : f.statement ω with
        | write w =>
          refine ⟨w.row r, mem_map_of_mem hr, ?_⟩
          by_cases hg : w.guard r = true
          · rw [Write.row, if_pos hg]
            exact .set (by simp [State.issued, htop, hs, Statement.write?]) hg
          · rw [Write.row, if_neg hg]
            exact .kept
        | read | completeBatch => exact ⟨r, hr, .kept⟩
        | insert | insertBatch => exact ⟨r, mem_append_left _ hr, .kept⟩
      · rw [hst]
        exact ⟨r, hr, .kept⟩

/-- The ids of rows never change. -/
theorem Evolves.id_eq {r'} (h : Evolves c m r r') : r'.id = r.id := by
  cases h with
  | kept => rfl
  | set => exact Write.set_id _ _

theorem evolves_of_id_eq {r'} (hr : r ∈ c.rows) (hr' : r' ∈ State.rows (pipeline.move c m))
    (h : r'.id = r.id) : Evolves c m r r' := by
  obtain ⟨r'', hr'', he⟩ := rows_evolve c m hr
  obtain rfl : r' = r'' := eq_of_id_eq hr' hr'' (h.trans he.id_eq.symm)
  exact he

/-! ## Rows held by a frame -/

/-- The move does not change the status of a row that a frame of another task
holds. -/
def Undisturbed (held : Frame → List Uuid) (c : State) : Move Operation Choice → Prop
  | .start _ => True
  | .run i ω => ∀ w ∈ c.issued (.run i ω), ∀ r ∈ c.rows, w.guard r = true →
      ∀ s ∈ w.target, s ≠ r.status → ∀ g ∈ c.others i, r.id ∉ held g

instance (held : Frame → List Uuid) (c : State) :
    ∀ m : Move Operation Choice, Decidable (Undisturbed held c m)
  | .start _ => inferInstanceAs (Decidable True)
  | .run i ω => inferInstanceAs (Decidable (∀ w ∈ c.issued (.run i ω), _))

/-- A row that another task holds stays under its id, with its status. -/
theorem status_of_undisturbed {held : Frame → List Uuid} {f g id s} (htop : c.top i = some f)
    (hm : Undisturbed held c (.run i ω)) (hg : g ∈ c.others i) (hh : id ∈ held g)
    (hl : ∃ r ∈ c.rows, r.id = id ∧ r.status = s) :
    ∃ r ∈ (pipeline.step ω c.shared f).shared.db.history.rows, r.id = id ∧ r.status = s := by
  obtain ⟨r, hr, rfl, rfl⟩ := hl
  obtain ⟨r', hr', he⟩ := rows_evolve c (.run i ω) hr
  rw [State.rows, (Program.move_run_of_top (P := pipeline) ω htop).1] at hr'
  refine ⟨r', hr', he.id_eq, ?_⟩
  cases he with
  | kept => rfl
  | @set w hi hgu =>
    rw [Write.set_status]
    cases ht : w.target with
    | none => rfl
    | some s =>
      by_contra hne
      exact hm w hi r hr hgu s ht hne g hg hh

/-! ## Concrete runs -/

/-- Task `i` takes `n` steps under the same choice. -/
def steps (i n : Nat) (ω : Choice) : List (Move Operation Choice) := List.replicate n (.run i ω)

def triggerOnHost (itemId : Uuid) : Operation :=
  .triggerUpdateForHost
    { tenantId := 0, itemId := itemId, hostId := 7, toVersion := "2", interactive := false }

/-- An update is triggered on the free host 7 and inserted with id 1; task 1 is its
orchestrator. -/
def triggered : List (Move Operation Choice) :=
  .start (triggerOnHost 1) :: steps 0 4 { newId := fun _ => 1 }

end Uptrakit.Update
