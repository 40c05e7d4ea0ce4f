import Mathlib.Order.RelClasses

/-!
# Guarantees of fallible programs

A program that reads and writes a state and may fail, without undoing what it has
written before.  A guarantee is a relation between the state before and the state
after that holds whether the program fails or not; guarantees that are preorders
compose.
-/

namespace Uptrakit.Data

universe u

/-- A program over states `σ` that may fail with `ε`; a failure keeps the state. -/
abbrev Query (ε σ α : Type u) := ExceptT ε (StateM σ) α

variable {ε σ α β : Type u}

namespace Query

def exec (m : Query ε σ α) (s : σ) : Except ε α × σ := m.run.run s

def ofStep (f : σ → Except ε α × σ) : Query ε σ α := fun s => f s

@[simp] theorem exec_ofStep (f : σ → Except ε α × σ) (s) : (ofStep f).exec s = f s := rfl

theorem exec_bind (m) (f : α → Query ε σ β) (s) : (m >>= f).exec s = match m.exec s with
      | (.ok a, s') => (f a).exec s'
      | (.error e, s') => (.error e, s') := by
  show (match m.exec s with
    | (x, s') => ExceptT.bindCont f x s') = _
  cases m.exec s with
  | mk x => cases x <;> rfl

end Query

/-- The program changes the state as the relation allows. -/
def Guarantees (R : σ → σ → Prop) (m : Query ε σ α) : Prop := ∀ s, R s (m.exec s).2

namespace Guarantees

variable {R : σ → σ → Prop}

section

variable [Std.Refl R]

theorem pure (a) : Guarantees R (Pure.pure a : Query ε σ α) := fun s => refl_of R s

theorem throw (e) : Guarantees R (MonadExcept.throw e : Query ε σ α) := fun s => refl_of R s

theorem get : Guarantees R (MonadState.get : Query ε σ σ) := fun s => refl_of R s

end

theorem bind [IsTrans σ R] {m} {f : α → Query ε σ β} (hm : Guarantees R m)
    (hf : ∀ a, Guarantees R (f a)) : Guarantees R (m >>= f) := by
  intro s
  have hms := hm s
  rw [Query.exec_bind]
  cases h : m.exec s with
  | mk x s' =>
    rw [h] at hms
    cases x with
    | error => exact hms
    | ok a => exact trans_of R hms (hf a s')

theorem forM [Std.Refl R] [IsTrans σ R] {γ : Type*} {l : List γ} {f : γ → Query ε σ PUnit}
    (hf : ∀ a ∈ l, Guarantees R (f a)) : Guarantees R (l.forM f) := by
  induction l with
  | nil => exact pure _
  | cons a _ ih =>
    exact bind (hf a List.mem_cons_self) fun _ => ih fun b hb => hf b (List.mem_cons_of_mem _ hb)

end Guarantees

end Uptrakit.Data
