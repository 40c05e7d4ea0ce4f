import Mathlib.Data.List.Basic

/-!
# Lists of writes

A store that is a function of its keys, after a list of writes: the last write to a key
decides.
-/

namespace Uptrakit.Data

open List Function

variable {κ β : Type*} [DecidableEq κ]

def writeAll (m : κ → β) (writes : List (κ × β)) : κ → β :=
  writes.foldl (fun m w => Function.update m w.1 w.2) m

@[simp] theorem writeAll_nil (m : κ → β) : writeAll m [] = m := rfl

@[simp] theorem writeAll_cons (m : κ → β) (w : κ × β) (writes : List (κ × β)) :
    writeAll m (w :: writes) = writeAll (Function.update m w.1 w.2) writes := rfl

theorem writeAll_append (m : κ → β) (writes writes') :
    writeAll m (writes ++ writes') = writeAll (writeAll m writes) writes' := foldl_append

variable {m : κ → β} {writes : List (κ × β)}

/-- What every write to a key gives it holds of its value, if there is such a write or it
has held before. -/
theorem writeAll_of_forall {p : β → Prop} {key} (hwr : ∀ w ∈ writes, w.1 = key → p w.2)
    (hk : key ∈ writes.map Prod.fst ∨ p (m key)) : p (writeAll m writes key) := by
  induction writes generalizing m with
  | nil => exact hk.resolve_left not_mem_nil
  | cons w _ ih =>
    rw [writeAll_cons]
    refine ih (fun w' hw' => hwr w' (mem_cons_of_mem w hw')) ?_
    by_cases hw : w.1 = key
    · subst hw
      rw [update_self]
      exact .inr (hwr w mem_cons_self rfl)
    · rw [update_of_ne (Ne.symm hw)]
      refine hk.imp_left fun hm => ?_
      rcases mem_cons.1 hm with heq | hm
      · exact absurd heq.symm hw
      · exact hm

/-- A key that is not written keeps its value. -/
theorem writeAll_of_notMem {key} (hk : key ∉ writes.map Prod.fst) :
    writeAll m writes key = m key := by
  refine writeAll_of_forall (p := fun value => value = m key) ?_ (.inr rfl)
  intro w hw heq
  exact absurd (heq ▸ mem_map_of_mem hw) hk

end Uptrakit.Data
