import Uptrakit.Concurrent.Indexed
import Uptrakit.Concurrent.Pool
import Uptrakit.Concurrent.Run

/-!
# Calls over shared state

A call stands at one point at a time; a step runs it against the shared state and
leads to the next point.  A call that has returned stays where it is, so that its
result can be asked for.  Nothing happens to a call that takes no more steps: a
process that is stopped is one whose calls are not run any more.
-/

namespace Uptrakit.Concurrent

/-- Calls with operations `ε`, choices of the environment `ω`, shared states `σ` and
points `φ`. -/
structure Calls (ε ω σ φ : Type*) where
  enter : ε → φ
  step : ω → σ → φ → σ × φ

structure System (σ φ : Type*) where
  shared : σ
  calls : List φ := []

namespace Calls

variable {ε ω σ φ : Type*} (P : Calls ε ω σ φ)

def move (s : System σ φ) : Move ε ω → System σ φ
  | .start operation => { s with calls := s.calls ++ [P.enter operation] }
  | .run t choice =>
    match s.calls[t]? with
    | none => s
    | some f =>
      let next := P.step choice s.shared f
      ⟨next.1, s.calls.set t next.2⟩

def run (s : System σ φ) (moves : List (Move ε ω)) : System σ φ := moves.foldl P.move s

variable {P}

theorem run_append (s before after) :
    P.run s (before ++ after) = P.run (P.run s before) after := List.foldl_append

variable {s : System σ φ} {inv : System σ φ → Prop}

/-- The call that has just begun. -/
theorem getElem?_calls_start (s operation) :
    (P.move s (.start operation)).calls[s.calls.length]? = some (P.enter operation) := by
  simp [move]

/-- What holds at every point at which a call stands, when one more call begins. -/
theorem forall_calls_start {p : φ → Prop} (h : ∀ f ∈ s.calls, p f) {operation}
    (he : p (P.enter operation)) : ∀ f ∈ (P.move s (.start operation)).calls, p f := by
  intro f hf
  rcases List.mem_append.1 hf with hf | hf
  · exact h f hf
  · cases List.mem_singleton.1 hf
    exact he

/-- The rule for runs whose moves meet a condition: starting a call and a step of a call
keep the invariant. -/
theorem run_invariant_of_meets {ok : System σ φ → Move ε ω → Prop}
    (start : ∀ s operation, inv s → ok s (.start operation) → inv (P.move s (.start operation)))
    (step : ∀ s t choice f, inv s → ok s (.run t choice) → s.calls[t]? = some f →
      inv ⟨(P.step choice s.shared f).1, s.calls.set t (P.step choice s.shared f).2⟩) (hs : inv s)
    {moves : List (Move ε ω)} (hmo : Meets P.move ok s moves) : inv (P.run s moves) := by
  refine foldl_invariant_of_meets ?_ hs hmo
  intro s m hs hm
  cases m with
  | start operation => exact start s operation hs hm
  | run t choice =>
    rw [move]
    cases hc : s.calls[t]? with
    | none => exact hs
    | some f => exact step s t choice f hs hm hc

/-- The rule for all runs. -/
theorem run_invariant (start : ∀ s operation, inv s → inv (P.move s (.start operation)))
    (step : ∀ s t choice f, inv s → s.calls[t]? = some f →
      inv ⟨(P.step choice s.shared f).1, s.calls.set t (P.step choice s.shared f).2⟩) (hs : inv s)
    (moves : List (Move ε ω)) : inv (P.run s moves) := by
  have hm : Meets P.move (fun _ _ => True) s moves := meets_of_forall (fun _ _ => trivial) s moves
  refine run_invariant_of_meets ?_ ?_ hs hm
  · intro s operation hs _
    exact start s operation hs
  · intro s t choice f hs _ hc
    exact step s t choice f hs hc

end Calls

end Uptrakit.Concurrent
