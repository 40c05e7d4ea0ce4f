import Mathlib.Data.List.Perm.Basic
import Mathlib.Data.List.Flatten

/-!
# Pools of tasks over shared state

Concurrent code is modelled by its atomic steps.  A task is a stack of frames,
the points at which it stands in the functions it is inside of; one step runs
its top frame against the shared state, replaces that frame by the ones it
continues with, and may start further tasks.  What a step cannot know (a clock,
the answer of another service) is a choice made by the environment.

A run is a list of moves: an operation is started, or some task takes a step.
Every interleaving is a run, and runs are executable.  The rules at the end of
the module reduce a property of all runs to a property of single steps.
-/

namespace Uptrakit.Concurrent

open List

/-- What a step does: the shared state it leaves, the frames its task continues
with, and the tasks it starts. -/
structure Outcome (σ φ : Type*) where
  shared : σ
  frames : List φ
  spawned : List φ := []

/-- A program over shared states `σ` with operations `ε`, frames `φ` and
environment choices `ω`. -/
structure Program (ε σ φ ω : Type*) where
  enter : ε → φ
  step : ω → σ → φ → Outcome σ φ

/-- A shared state and the tasks in flight.  A finished task stays in the pool
as an empty stack, so that tasks keep their numbers. -/
structure Config (σ φ : Type*) where
  shared : σ
  pool : List (List φ)

inductive Move (ε ω : Type*)
  | start (operation : ε)
  | run (task : Nat) (choice : ω)

namespace Config

variable {σ φ : Type*}

def frames (c : Config σ φ) : List φ := c.pool.flatten

/-- No task is in flight. -/
def Quiescent (c : Config σ φ) : Prop := c.frames = []

def top (c : Config σ φ) (i : Nat) : Option φ := (c.pool[i]?).bind List.head?

/-- All frames but the top one of task `i`. -/
def others (c : Config σ φ) (i : Nat) : List φ := (c.pool.modify i List.tail).flatten

variable {i : Nat} {f : φ} {rest : List φ} {c : Config σ φ}

theorem flatten_modify_perm {pool : List (List φ)} (g : List φ → List φ)
    (hi : pool[i]? = some (f :: rest)) (added : List φ) (hg : g (f :: rest) = added ++ rest) :
    (pool.modify i g).flatten.Perm (added ++ (pool.modify i tail).flatten) := by
  induction pool generalizing i with
  | nil => simp at hi
  | cons t _ ih =>
    cases i with
    | zero =>
      obtain rfl : t = f :: rest := by simpa using hi
      simp [hg]
    | succ =>
      simp only [modify_succ_cons, flatten_cons]
      refine ((ih hi).append_left t).trans ?_
      rw [← append_assoc, ← append_assoc]
      exact perm_append_comm.append_right _

/-- The frames are the top of a thread and all the others. -/
theorem frames_perm (hi : c.pool[i]? = some (f :: rest)) : c.frames.Perm (f :: c.others i) := by
  have h := flatten_modify_perm id hi [f] rfl
  rwa [modify_id] at h

theorem exists_of_top (h : c.top i = some f) : ∃ rest, c.pool[i]? = some (f :: rest) := by
  unfold top at h
  cases hi : c.pool[i]? with
  | none => simp [hi] at h
  | some t =>
    cases t with
    | nil => simp [hi] at h
    | cons g rest =>
      obtain rfl : g = f := by simpa [hi] using h
      exact ⟨rest, rfl⟩

theorem mem_frames_of_top (h : c.top i = some f) : f ∈ c.frames := by
  obtain ⟨_, hi⟩ := exists_of_top h
  exact (frames_perm hi).mem_iff.mpr mem_cons_self

end Config

namespace Program

variable {ε σ φ ω : Type*} (P : Program ε σ φ ω)

/-- The configuration after a move.  A move of a finished or unknown task
changes nothing. -/
def move (c : Config σ φ) : Move ε ω → Config σ φ
  | .start operation => { c with pool := c.pool ++ [[P.enter operation]] }
  | .run i choice =>
    match c.pool[i]? with
    | some (f :: _) =>
      let o := P.step choice c.shared f
      { shared := o.shared
        pool := c.pool.modify i (fun t => o.frames ++ t.tail) ++ o.spawned.map ([·]) }
    | _ => c

def run (c : Config σ φ) (moves : List (Move ε ω)) : Config σ φ := moves.foldl P.move c

/-- Every move of the run meets the condition, in the configuration it is made
in. -/
def Meets (ok : Config σ φ → Move ε ω → Prop) : Config σ φ → List (Move ε ω) → Prop
  | _, [] => True
  | c, m :: moves => ok c m ∧ Meets ok (P.move c m) moves

instance decidableMeets (ok : Config σ φ → Move ε ω → Prop) [∀ c m, Decidable (ok c m)] :
    ∀ c moves, Decidable (P.Meets ok c moves)
  | _, [] => inferInstanceAs (Decidable True)
  | c, m :: moves =>
    have := decidableMeets ok (P.move c m) moves
    inferInstanceAs (Decidable (_ ∧ _))

variable {P}

@[simp] theorem run_nil (c) : P.run c [] = c := rfl

@[simp] theorem run_cons (c : Config σ φ) (m : Move ε ω) (moves : List (Move ε ω)) :
    P.run c (m :: moves) = P.run (P.move c m) moves := rfl

theorem run_append (c before after) :
    P.run c (before ++ after) = P.run (P.run c before) after := foldl_append

variable {ok : Config σ φ → Move ε ω → Prop} {c : Config σ φ} {inv : Config σ φ → Prop}

theorem meets_append {before after} :
    P.Meets ok c (before ++ after) ↔ P.Meets ok c before ∧ P.Meets ok (P.run c before) after := by
  induction before generalizing c with
  | nil => simp [Meets]
  | cons _ _ ih => simp [Meets, ih, and_assoc]

/-- A thread that runs replaces its top frame by those of the step. -/
theorem move_run_of_top {i : Nat} {f : φ} (choice : ω) (h : c.top i = some f) :
    (P.move c (.run i choice)).shared = (P.step choice c.shared f).shared ∧
      (P.move c (.run i choice)).frames.Perm
        ((P.step choice c.shared f).frames ++ (P.step choice c.shared f).spawned ++
          c.others i) := by
  obtain ⟨_, hi⟩ := Config.exists_of_top h
  have hs : ∀ l : List φ, (l.map ([·])).flatten = l := by
    intro l
    induction l with
    | nil => rfl
    | cons _ _ ih => simp [ih]
  simp only [move, hi, Config.frames, flatten_append, hs, true_and]
  refine ((Config.flatten_modify_perm _ hi _ rfl).append_right _).trans ?_
  rw [append_assoc, append_assoc]
  exact perm_append_comm.append_left _

theorem move_run_of_top_none {i choice} (h : c.top i = none) : P.move c (.run i choice) = c := by
  rw [move]
  split
  · rename_i hi
    simp [Config.top, hi] at h
  · rfl

@[simp] theorem move_start_shared (c operation) :
    (P.move c (.start operation)).shared = c.shared := rfl

theorem move_start_frames (c operation) :
    (P.move c (.start operation)).frames = c.frames ++ [P.enter operation] := by
  simp [move, Config.frames]

/-- The rule for properties of the shared state: a move keeps one that the step it takes keeps. -/
theorem shared_move {p : σ → Prop} {m} (hc : p c.shared)
    (step : ∀ i choice f, m = .run i choice → c.top i = some f →
      p (P.step choice c.shared f).shared) :
    p (P.move c m).shared := by
  cases m with
  | start => exact hc
  | run i choice =>
    cases ht : c.top i with
    | none => rwa [move_run_of_top_none ht]
    | some f =>
      rw [(move_run_of_top choice ht).1]
      exact step i choice f rfl ht

/-- Invariants of runs: what holds at the start and is kept by every move that
meets the condition holds at the end of every run that meets it. -/
theorem run_invariant (step : ∀ c m, inv c → ok c m → inv (P.move c m)) {moves} (hc : inv c)
    (hm : P.Meets ok c moves) : inv (P.run c moves) := by
  induction moves generalizing c with
  | nil => exact hc
  | cons m _ ih => exact ih (step c m hc hm.1) hm.2

/-- The rule for properties of frames in flight: operations enter with the
property, a step gives it to the frames it continues with and does not take it
from the other frames. -/
theorem frames_invariant {holds : σ → φ → Prop} (enter : ∀ s operation, holds s (P.enter operation))
    (next : ∀ c i choice f, (∀ g ∈ c.frames, holds c.shared g) → c.top i = some f →
      ok c (.run i choice) →
      ∀ g ∈ (P.step choice c.shared f).frames ++ (P.step choice c.shared f).spawned,
        holds (P.step choice c.shared f).shared g)
    (others : ∀ c i choice f, (∀ g ∈ c.frames, holds c.shared g) → c.top i = some f →
      ok c (.run i choice) →
      ∀ g ∈ c.others i, holds c.shared g → holds (P.step choice c.shared f).shared g) :
    ∀ (c : Config σ φ) (m : Move ε ω), (∀ f ∈ c.frames, holds c.shared f) → ok c m →
      ∀ f ∈ (P.move c m).frames, holds (P.move c m).shared f := by
  intro c m hc hm g hg
  cases m with
  | start operation =>
    rw [move_start_frames, mem_append, mem_singleton] at hg
    obtain hg | rfl := hg
    · exact hc g hg
    · exact enter _ operation
  | run i choice =>
    cases ht : c.top i with
    | none =>
      rw [move_run_of_top_none ht] at hg ⊢
      exact hc g hg
    | some f =>
      obtain ⟨hs, hf⟩ := move_run_of_top (P := P) choice ht
      obtain ⟨_, hi⟩ := Config.exists_of_top ht
      rw [hf.mem_iff, mem_append] at hg
      rw [hs]
      obtain hg | hg := hg
      · exact next c i choice f hc ht hm g hg
      · refine others c i choice f hc ht hm g hg (hc g ?_)
        exact (Config.frames_perm hi).mem_iff.mpr (mem_cons_of_mem _ hg)

end Program

end Uptrakit.Concurrent
