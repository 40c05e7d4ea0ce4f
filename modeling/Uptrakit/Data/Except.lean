import Mathlib.Init

/-!
# Inverting successful fallible computations

Fallible functions are modelled in `Except`, in the order of the checks of the
source.  The lemmas here take a successful chain apart, one check at a time.
-/

universe u

namespace Uptrakit.Data

variable {ε ε' : Type*} {α β : Type u}

/-- A successful sequence succeeds in both of its parts. -/
theorem bind_eq_ok {x} {f : α → Except ε β} {b} :
    x >>= f = .ok b ↔ ∃ a, x = .ok a ∧ f a = .ok b := by
  cases x with
  | error => exact ⟨fun h => (by cases h), fun ⟨_, h, _⟩ => (by cases h)⟩
  | ok a =>
    refine ⟨fun h => ⟨a, rfl, h⟩, ?_⟩
    rintro ⟨_, ha, h⟩
    cases ha
    exact h

end Uptrakit.Data
