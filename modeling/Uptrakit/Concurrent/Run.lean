import Mathlib.Data.List.Basic

/-!
# Runs

A run is a list of moves, made one after the other.  What holds at the start and
is kept by every move holds in every state that is reached.
-/

namespace Uptrakit.Concurrent

variable {σ μ : Type*}

/-- Every move of the run meets the condition, in the state it is made in. -/
def Meets (move : σ → μ → σ) (ok : σ → μ → Prop) : σ → List μ → Prop
  | _, [] => True
  | s, m :: moves => ok s m ∧ Meets move ok (move s m) moves

instance decidableMeets (move : σ → μ → σ) (ok : σ → μ → Prop) [∀ s m, Decidable (ok s m)] :
    ∀ s moves, Decidable (Meets move ok s moves)
  | _, [] => inferInstanceAs (Decidable True)
  | s, m :: moves =>
    have := decidableMeets move ok (move s m) moves
    inferInstanceAs (Decidable (_ ∧ _))

variable {move : σ → μ → σ} {ok : σ → μ → Prop} {s : σ} {moves : List μ} {p inv : σ → Prop}

theorem meets_append {moves'} : Meets move ok s (moves ++ moves') ↔
      Meets move ok s moves ∧ Meets move ok (moves.foldl move s) moves' := by
  induction moves generalizing s with
  | nil => simp [Meets]
  | cons _ _ ih => simp only [List.cons_append, Meets, ih, List.foldl_cons, and_assoc]

theorem meets_of_forall (h : ∀ s m, ok s m) (s moves) : Meets move ok s moves := by
  induction moves generalizing s with
  | nil => trivial
  | cons m _ ih => exact ⟨h s m, ih (move s m)⟩

/-- What holds in every state of the run may be used at every move. -/
theorem Meets.and_of_forall (h : Meets move ok s moves)
    (hp : ∀ n, p ((moves.take n).foldl move s)) :
    Meets move (fun s m => ok s m ∧ p s) s moves := by
  induction moves generalizing s with
  | nil => trivial
  | cons _ _ ih => exact ⟨⟨h.1, hp 0⟩, ih h.2 fun n => hp (n + 1)⟩

/-- The states of a run are those in which its moves are made, and the last one. -/
theorem forall_foldl_take (h : Meets move (fun s _ => p s) s moves) (hl : p (moves.foldl move s))
    (n : Nat) : p ((moves.take n).foldl move s) := by
  induction moves generalizing s n with
  | nil => rwa [List.take_nil]
  | cons _ _ ih =>
    cases n with
    | zero => exact h.1
    | succ n => exact ih h.2 hl n

/-- What the moves of a run keep exactly when they meet the condition holds in every state of the
run exactly when all of them meet it. -/
theorem forall_foldl_take_iff_meets {given : σ → μ → Prop} (hmo : Meets move given s moves)
    (hi : ∀ s m, inv s → given s m → p (move s m) → inv (move s m))
    (hp : ∀ s m, inv s → given s m → p s → (p (move s m) ↔ ok s m)) (hs : inv s) (hps : p s) :
    (∀ n, p ((moves.take n).foldl move s)) ↔ Meets move ok s moves := by
  induction moves generalizing s with
  | nil => simpa [Meets] using hps
  | cons m moves ih =>
    obtain ⟨hg, hmo⟩ := hmo
    constructor
    · intro h
      have hn : p (move s m) := h 1
      have hr := ih hmo (hi s m hs hg hn) hn
      exact ⟨(hp s m hs hg hps).1 hn, hr.1 fun n => h (n + 1)⟩
    · rintro ⟨hm, hr⟩ n
      have hn : p (move s m) := (hp s m hs hg hps).2 hm
      cases n with
      | zero => exact hps
      | succ n => exact (ih hmo (hi s m hs hg hn) hn).2 hr n

/-- Invariants of the runs that meet a condition. -/
theorem foldl_invariant_of_meets (step : ∀ s m, inv s → ok s m → inv (move s m)) (hs : inv s)
    (hm : Meets move ok s moves) : inv (moves.foldl move s) := by
  induction moves generalizing s with
  | nil => exact hs
  | cons m _ ih => exact ih (step s m hs hm.1) hm.2

/-- Invariants of all runs. -/
theorem foldl_invariant (step : ∀ s m, inv s → inv (move s m)) (hs : inv s) (moves : List μ) :
    inv (moves.foldl move s) := by
  induction moves generalizing s with
  | nil => exact hs
  | cons m _ ih => exact ih (step s m hs)

end Uptrakit.Concurrent
