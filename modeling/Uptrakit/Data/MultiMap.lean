import Mathlib.Data.List.AList
import Mathlib.Data.Finset.Insert

/-!
# Maps from keys to sets

A `HashMap<K, HashSet<V>>` that is filled by `entry(k).or_default().insert(v)`,
and the rule for loops that only add to an accumulator.
-/

namespace Uptrakit.Data

abbrev MultiMap (κ ν : Type*) := AList fun _ : κ => Finset ν

namespace MultiMap

variable {κ ν : Type*} [DecidableEq κ]

def get (m : MultiMap κ ν) (k : κ) : Finset ν := (m.lookup k).getD ∅

/-- `entry(k).or_default().insert(v)`. -/
def insertAt [DecidableEq ν] (m : MultiMap κ ν) (k : κ) (v : ν) : MultiMap κ ν :=
  AList.insert k (insert v (m.get k)) m

@[simp] theorem get_empty (k) : get (∅ : MultiMap κ ν) k = ∅ := rfl

variable {m : MultiMap κ ν} {k : κ} {v : ν}

theorem mem_get_insertAt [DecidableEq ν] {k' v'} :
    v' ∈ (m.insertAt k v).get k' ↔ v' ∈ m.get k' ∨ (k' = k ∧ v' = v) := by
  unfold insertAt
  by_cases h : k' = k
  · subst h
    simp only [get, AList.lookup_insert, Option.getD_some, Finset.mem_insert, true_and]
    exact or_comm
  · simp only [get, AList.lookup_insert_ne h, h, false_and, or_false]

/-- A key under which something is stored is among the keys. -/
theorem mem_keys_of_mem_get (h : v ∈ m.get k) : k ∈ m.keys := by
  change k ∈ m
  rw [← AList.lookup_isSome]
  cases hl : m.lookup k with
  | none => simp [get, hl] at h
  | some => rfl

theorem mem_keys_insertAt [DecidableEq ν] {k'} :
    k' ∈ (m.insertAt k v).keys ↔ k' = k ∨ k' ∈ m.keys :=
  AList.mem_insert m

end MultiMap

/-- A loop whose body can only make `P` true of its accumulator, and does so
exactly on the items satisfying `Q`, ends with `P` true exactly when it was
true before or some item satisfies `Q`. -/
theorem foldl_iff_or_exists {σ ι : Type*} {f : σ → ι → σ} {P : σ → Prop} {Q : ι → Prop}
    (step : ∀ acc i, P (f acc i) ↔ P acc ∨ Q i) (items : List ι) (acc : σ) :
    P (items.foldl f acc) ↔ P acc ∨ ∃ i ∈ items, Q i := by
  induction items generalizing acc with
  | nil => simp
  | cons _ _ ih => simp only [List.foldl_cons, ih, step, List.exists_mem_cons_iff, or_assoc]

end Uptrakit.Data
