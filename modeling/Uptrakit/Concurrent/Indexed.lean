import Mathlib.Data.List.Basic

/-!
# Lists by index

Rows and calls are known by their places in a list that only grows and whose elements are
replaced in place.
-/

namespace Uptrakit.Concurrent

open List

variable {α : Type*} {l : List α} {i k : Nat} {a b : α}

theorem getElem?_set_eq_some_iff (hlt : k < l.length) :
    (l.set k b)[i]? = some a ↔ (i = k ∧ b = a) ∨ (i ≠ k ∧ l[i]? = some a) := by
  rw [getElem?_set]
  split
  · rename_i hki
    subst hki
    simp
  · rename_i hki
    simp [Ne.symm hki]

/-- Another element stays where it is. -/
theorem getElem?_set_iff_of_ne {old} (ho : l[k]? = some old) (ha : a ≠ old) (hb : a ≠ b) :
    (l.set k b)[i]? = some a ↔ l[i]? = some a := by
  rw [getElem?_set_eq_some_iff (List.getElem?_eq_some_iff.1 ho).1]
  constructor
  · rintro (⟨-, rfl⟩ | ⟨-, h⟩)
    · exact absurd rfl hb
    · exact h
  · intro h
    refine .inr ⟨?_, h⟩
    rintro rfl
    exact ha (Option.some.inj (h.symm.trans ho))

theorem getElem?_concat_eq_some_iff :
    (l ++ [b])[i]? = some a ↔ l[i]? = some a ∨ (i = l.length ∧ b = a) := by
  rcases Nat.lt_trichotomy i l.length with hlt | rfl | hlt
  · rw [getElem?_append_left hlt]
    have hne : i ≠ l.length := by omega
    simp [hne]
  · simp
  · have hn : l[i]? = none := getElem?_eq_none (by omega)
    have hne : i ≠ l.length := by omega
    rw [getElem?_eq_none (by rw [length_append, length_singleton]; omega), hn]
    simp [hne]

/-- What is there stays when the list grows. -/
theorem getElem?_append_of_eq_some (h : l[i]? = some a) (l') : (l ++ l')[i]? = some a := by
  rw [List.getElem?_append_left (List.getElem?_eq_some_iff.1 h).1]
  exact h

/-- What is there can be replaced. -/
theorem getElem?_set_self_of_eq_some (h : l[i]? = some a) (b) : (l.set i b)[i]? = some b :=
  List.getElem?_set_self (List.getElem?_eq_some_iff.1 h).1

/-- What does not depend on the change stays the same. -/
theorem map_set_of_eq {β : Type*} {f : α → β} (h : l[i]? = some a) (hb : f b = f a) :
    (l.set i b).map f = l.map f := by
  obtain ⟨hlt, rfl⟩ := List.getElem?_eq_some_iff.1 h
  rw [map_set, hb, ← map_set, set_getElem_self]

/-! ## Counting -/

theorem countP_set_add (h : l[k]? = some a) (b) (p : α → Bool) :
    (l.set k b).countP p + (if p a then 1 else 0) = l.countP p + if p b then 1 else 0 := by
  obtain ⟨hlt, hg⟩ := List.getElem?_eq_some_iff.1 h
  have hpo : p a = true → 0 < l.countP p := fun hp =>
    countP_pos_iff.2 ⟨a, mem_of_getElem? h, hp⟩
  rw [countP_set hlt, hg]
  split
  · have := hpo ‹_›
    omega
  · omega

/-- At most one element counts, when one comes to count only while none does. -/
theorem countP_set_le_one {p : α → Bool} (h : l[k]? = some a) (ho : l.countP p ≤ 1)
    (hf : p b = true → p a = true ∨ ∀ c ∈ l, ¬ p c = true) : (l.set k b).countP p ≤ 1 := by
  have had := countP_set_add h b p
  by_cases hb : p b = true
  · rw [if_pos hb] at had
    rcases hf hb with ha | hn
    · rw [if_pos ha] at had
      omega
    · rw [countP_eq_zero.2 hn] at had
      omega
  · rw [if_neg hb] at had
    omega

theorem eq_of_countP_le_one {p : α → Bool} (ho : l.countP p ≤ 1) (hi : l[i]? = some a)
    (hk : l[k]? = some b) (ha : p a = true) (hb : p b = true) : i = k := by
  have hge : ∀ {i k : Nat} {a b}, l[i]? = some a → l[k]? = some b → p a = true → p b = true →
      k ≤ i := by
    intro i k a b hi hk ha hb
    by_contra hlt
    rw [← take_append_drop k l, countP_append] at ho
    have hf : 0 < (l.take k).countP p :=
      countP_pos_iff.2 ⟨a, mem_of_getElem? ((getElem?_take_of_lt (by omega)).trans hi), ha⟩
    have hs : 0 < (l.drop k).countP p :=
      countP_pos_iff.2 ⟨b, mem_of_getElem? (i := 0) (by simpa using hk), hb⟩
    omega
  exact Nat.le_antisymm (hge hk hi hb ha) (hge hi hk ha hb)

end Uptrakit.Concurrent
