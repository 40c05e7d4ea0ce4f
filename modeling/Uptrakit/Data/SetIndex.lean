import Mathlib.Data.Finset.Erase
import Mathlib.Data.Finset.Lattice.Lemmas

/-!
# Indexes of sets

A `HashMap<K, BTreeSet<V>>`, which has a set of values under some of the keys.  A key without
a set and a key with the empty set are read in the same way, but they are not the same: a map
that has no empty sets is known by what is read from it.

Loops over sets of keys are compared with operations that treat a set at once.
-/

namespace Uptrakit.Data

open Function List

abbrev SetIndex (κ ν : Type*) := κ → Option (Finset ν)

namespace SetIndex

variable {κ ν : Type*}

def empty : SetIndex κ ν := fun _ => none

/-- `get(k).cloned().unwrap_or_default()`. -/
def get (m : SetIndex κ ν) (k : κ) : Finset ν := (m k).getD ∅

/-- There is no empty set in the map. -/
def NoEmpty (m : SetIndex κ ν) : Prop := ∀ k s, m k = some s → s.Nonempty

theorem NoEmpty.empty : NoEmpty (empty : SetIndex κ ν) := by
  rintro k s ⟨⟩

variable {m : SetIndex κ ν}

/-- What is read from a map without empty sets says everything about it. -/
theorem NoEmpty.ext {m' : SetIndex κ ν} (h : m.NoEmpty) (h' : m'.NoEmpty)
    (hg : ∀ k, m.get k = m'.get k) : m = m' := by
  funext k
  have hk := hg k
  unfold get at hk
  cases hm : m k with
  | none =>
    cases hm' : m' k with
    | none => rfl
    | some s =>
      rw [hm, hm'] at hk
      exact ((h' k s hm').ne_empty hk.symm).elim
  | some s =>
    cases hm' : m' k with
    | none =>
      rw [hm, hm'] at hk
      exact ((h k s hm).ne_empty hk).elim
    | some =>
      rw [hm, hm'] at hk
      exact congrArg some hk

variable [DecidableEq ν]

/-- The value is removed from all sets, and sets that are empty then are removed. -/
def without (m : SetIndex κ ν) (v : ν) : SetIndex κ ν :=
  fun k => ((m k).map (·.erase v)).filter (· ≠ ∅)

theorem get_without (m : SetIndex κ ν) (v : ν) (k : κ) :
    (m.without v).get k = (m.get k).erase v := by
  unfold get without
  cases m k with
  | none => rfl
  | some s =>
    by_cases he : s.erase v = ∅
    · simp [Option.filter, he]
    · simp [Option.filter, he]

theorem NoEmpty.without (m : SetIndex κ ν) (v : ν) : NoEmpty (m.without v) := by
  intro k s hs
  obtain ⟨-, hne⟩ := Option.filter_eq_some_iff.1 hs
  exact Finset.nonempty_iff_ne_empty.2 (of_decide_eq_true hne)

variable [DecidableEq κ]

/-- `entry(k).or_default().insert(v)`. -/
def insertAt (m : SetIndex κ ν) (k : κ) (v : ν) : SetIndex κ ν :=
  Function.update m k (some (insert v (m.get k)))

/-- `get_mut(k)`, and `remove(v)` from the set if there is one. -/
def removeAt (m : SetIndex κ ν) (k : κ) (v : ν) : SetIndex κ ν :=
  Function.update m k ((m k).map (·.erase v))

theorem get_insertAt (m : SetIndex κ ν) (k : κ) (v : ν) :
    (m.insertAt k v).get = update m.get k (insert v (m.get k)) := by
  funext k'
  by_cases hk : k' = k
  · subst hk
    simp [insertAt, get]
  · simp [insertAt, get, hk]

theorem get_removeAt (m : SetIndex κ ν) (k : κ) (v : ν) :
    (m.removeAt k v).get = update m.get k ((m.get k).erase v) := by
  funext k'
  by_cases hk : k' = k
  · subst hk
    unfold removeAt get
    cases m k' <;> simp
  · simp [removeAt, get, hk]

theorem mem_get_insertAt {k k' v v'} :
    v' ∈ (m.insertAt k v).get k' ↔ v' ∈ m.get k' ∨ (k' = k ∧ v' = v) := by
  rw [get_insertAt]
  by_cases hk : k' = k
  · subst hk
    rw [update_self, or_comm]
    simp
  · simp [hk]

theorem NoEmpty.insertAt (h : m.NoEmpty) (k : κ) (v : ν) : NoEmpty (m.insertAt k v) := by
  intro k' s hs
  unfold SetIndex.insertAt at hs
  by_cases hk : k' = k
  · subst hk
    rw [update_self] at hs
    cases hs
    exact Finset.insert_nonempty v _
  · rw [update_of_ne hk] at hs
    exact h k' s hs

theorem mem_get_foldl_insertAt {keys : List κ} {k v v'} :
    v' ∈ (keys.foldl (fun m k => m.insertAt k v) m).get k ↔ v' ∈ m.get k ∨ (k ∈ keys ∧ v' = v) := by
  induction keys generalizing m with
  | nil => simp
  | cons _ _ ih =>
    rw [foldl_cons, ih, mem_get_insertAt, mem_cons]
    tauto

theorem NoEmpty.foldl_insertAt (h : m.NoEmpty) (keys : List κ) (v : ν) :
    NoEmpty (keys.foldl (fun m k => m.insertAt k v) m) := by
  induction keys generalizing m with
  | nil => exact h
  | cons k _ ih => exact ih (h.insertAt k v)

end SetIndex

/-- A loop whose body treats a key as `step` treats the set of this key.  What `step` does for two
sets one after the other, it does for their union. -/
theorem foldl_eq_step {σ τ κ : Type*} [DecidableEq κ] {view : σ → τ} {body : σ → κ → σ}
    {step : τ → Finset κ → τ} (he : ∀ t, step t ∅ = t)
    (hu : ∀ t A B, step (step t A) B = step t (A ∪ B))
    (hb : ∀ s k, view (body s k) = step (view s) {k}) (keys : List κ) (s : σ) :
    view (keys.foldl body s) = step (view s) keys.toFinset := by
  induction keys generalizing s with
  | nil => exact (he _).symm
  | cons _ _ ih =>
    rw [foldl_cons, ih, hb, hu, toFinset_cons, Finset.insert_eq]

/-! ## Maps that are inverse to each other -/

section Inverse

variable {α β : Type*} [DecidableEq α] [DecidableEq β] {f : α → Option β} {g : β → Option α}

def Inverse (f : α → Option β) (g : β → Option α) : Prop := ∀ a b, f a = some b ↔ g b = some a

variable (h : Inverse f g)

include h

theorem Inverse.link {a b} (ha : ∀ b', f a = some b' → b' = b) (hb : ∀ a', g b = some a' → a' = a) :
    Inverse (update f a (some b)) (update g b (some a)) := by
  intro a' b'
  have hi := h a' b'
  grind

theorem Inverse.unlink {a b} (hb : g b = some a) :
    Inverse (update f a none) (update g b none) := by
  intro a' b'
  have hi := h a' b'
  have ha := (h a b).2 hb
  grind

end Inverse

end Uptrakit.Data
