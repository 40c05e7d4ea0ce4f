import Mathlib.Data.List.Basic
import Mathlib.Order.Lattice

/-!
# Ranks in ordered lists

The rank of a key is the number of elements with smaller keys.  In a list with increasing
keys an element stands at its rank, so a window of the list has the elements whose ranks
are in it.
-/

namespace Uptrakit.Data

open List

variable {α κ : Type*} [LinearOrder κ] (key : α → κ)

/-- The number of elements with keys smaller than `k`. -/
def rank (k : κ) (l : List α) : Nat := l.countP fun a => decide (key a < k)

variable {key}

variable {l : List α} {a : α}

variable (hl : l.Pairwise fun a b => key a < key b)

include hl

/-- An element of an ordered list stands at its rank. -/
theorem getElem?_rank (ha : a ∈ l) : l[rank key (key a) l]? = some a := by
  induction l with
  | nil => cases ha
  | cons b l ih =>
    obtain ⟨hb, hl⟩ := pairwise_cons.1 hl
    rcases mem_cons.1 ha with rfl | ha
    · have hz : rank key (key a) (a :: l) = 0 := by
        refine countP_eq_zero.2 ?_
        intro c hc
        rcases mem_cons.1 hc with rfl | hc
        · simp
        · simpa using (hb c hc).le
      rw [hz, getElem?_cons_zero]
    · have hs : rank key (key a) (b :: l) = rank key (key a) l + 1 :=
        countP_cons_of_pos (by simpa using hb a ha)
      rw [hs]
      exact ih hl ha

theorem rank_lt_length (ha : a ∈ l) : rank key (key a) l < l.length :=
  (List.getElem?_eq_some_iff.1 (getElem?_rank hl ha)).1

/-- The window of `size` elements from the index `start` has the elements whose ranks are
in it. -/
theorem mem_window_of_rank (ha : a ∈ l) {start size} (hs : start ≤ rank key (key a) l)
    (hsi : rank key (key a) l < start + size) : a ∈ (l.drop start).take size := by
  refine mem_of_getElem? (i := rank key (key a) l - start) ?_
  rw [getElem?_take_of_lt (by omega), getElem?_drop, Nat.add_sub_cancel' hs]
  exact getElem?_rank hl ha

end Uptrakit.Data
