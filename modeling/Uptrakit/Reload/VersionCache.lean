import Uptrakit.Concurrent.Run

/-!
# The cache of settings versions

`SettingsVersionCache::update` (`crates/shared/config-reload/src/reconciler.rs`) loads the map of
all scopes, copies it with the new version, and stores the copy.  What another call has stored
between the two is lost, for any scope (`update_lost`).  If every call finds the other scopes as it
has loaded them when it stores, a scope is left with the version of a call that no later one follows
(`updates_kept`).
-/

namespace Uptrakit.Reload

open Concurrent List Function

inductive Scope
  | global
  | tenant (id : Nat)
  deriving DecidableEq

structure UpdateCall where
  scope : Scope
  version : Nat

inductive CacheStep (ι : Type*)
  | load (call : ι)
  | store (call : ι)

structure VersionCache (ι : Type*) where
  inner : Scope → Option Nat := fun _ => none
  loaded : ι → Option (Scope → Option Nat) := fun _ => none

variable {ι : Type*} [DecidableEq ι] (calls : ι → UpdateCall)

/-- `SettingsVersionCache::update`. -/
def VersionCache.step (s : VersionCache ι) : CacheStep ι → VersionCache ι
  | .load i => { s with loaded := update s.loaded i (some s.inner) }
  | .store i =>
    match s.loaded i with
    | none => s
    | some next => { s with inner := update next (calls i).scope (some (calls i).version) }

/-- A call stores when the other scopes are as it has loaded them. -/
def Current (s : VersionCache ι) : CacheStep ι → Prop
  | .load _ => True
  | .store i => ∃ next, s.loaded i = some next ∧
      ∀ scope, scope ≠ (calls i).scope → next scope = s.inner scope

/-- Every call that has started returns. -/
def AllReturn : List (CacheStep ι) → Prop
  | [] => True
  | .load i :: steps => .store i ∈ steps ∧ AllReturn steps
  | .store _ :: steps => AllReturn steps

variable {calls} {s : VersionCache ι} {steps : List (CacheStep ι)}

omit [DecidableEq ι] in
theorem store_mem_of_load_mem (h : AllReturn steps) {i} (hi : .load i ∈ steps) :
    .store i ∈ steps := by
  fun_induction AllReturn steps with
  | case1 => cases hi
  | case2 j _ ih =>
    obtain hi | hi := mem_cons.1 hi
    · cases hi
      exact mem_cons_of_mem _ h.1
    · exact mem_cons_of_mem _ (ih h.2 hi)
  | case3 _ _ ih =>
    obtain hi | hi := mem_cons.1 hi
    · cases hi
    · exact mem_cons_of_mem _ (ih h hi)

/-- In every interleaving of calls that find the other scopes as they have loaded them when they
store, a scope is left with the version of a call that no call for the scope follows, or as it was
if there is no call for it. -/
theorem updates_kept (calls : ι → UpdateCall) (s : VersionCache ι) (steps : List (CacheStep ι))
    (hc : Meets (VersionCache.step calls) (Current calls) s steps)
    (hr : AllReturn steps) (scope : Scope) :
    let final := (steps.foldl (VersionCache.step calls) s).inner scope
    final = s.inner scope ∧ (∀ i, .store i ∈ steps → (calls i).scope ≠ scope) ∨
      ∃ i before after, steps = before ++ .store i :: after ∧ (calls i).scope = scope ∧
        final = some (calls i).version ∧ ∀ j, .load j ∈ after → (calls j).scope ≠ scope := by
  induction steps generalizing s with
  | nil => exact .inl ⟨rfl, by simp⟩
  | cons step steps ih =>
    obtain ⟨hs, hc⟩ := hc
    cases step with
    | load i =>
      refine (ih _ hc hr.2).imp (fun ⟨heq, hn⟩ => ⟨heq, by simpa using hn⟩) ?_
      rintro ⟨j, before, after, rfl, hj⟩
      exact ⟨j, .load i :: before, after, rfl, hj⟩
    | store i =>
      have hr : AllReturn steps := hr
      obtain ⟨next, hl, ho⟩ := hs
      obtain ⟨hk, hn⟩ | ⟨j, before, after, rfl, hj⟩ := ih _ hc hr
      · rw [foldl_cons, hk, VersionCache.step, hl]
        by_cases hi : (calls i).scope = scope
        · subst hi
          refine .inr ⟨i, [], steps, rfl, rfl, update_self .., ?_⟩
          exact fun j hj => hn j (store_mem_of_load_mem hr hj)
        · refine .inl ⟨?_, by simpa [hi] using hn⟩
          exact (update_of_ne (Ne.symm hi) _ _).trans (ho scope (Ne.symm hi))
      · exact .inr ⟨j, .store i :: before, after, rfl, hj⟩

/-- An update of the global settings and one of a tenant's. -/
def twoUpdates : Bool → UpdateCall
  | true => ⟨.global, 1⟩
  | false => ⟨.tenant 7, 2⟩

/-- The first update stores between the load and the store of the second. -/
theorem update_lost :
    AllReturn [.load true, .load false, .store true, .store false] ∧
      ([.load true, .load false, .store true, .store false].foldl
        (VersionCache.step twoUpdates) {}).inner .global = none :=
  ⟨by simp [AllReturn], rfl⟩

/-- Two updates of the global settings, and one of a tenant's after them. -/
def threeUpdates : Fin 3 → UpdateCall
  | 0 => ⟨.global, 1⟩
  | 1 => ⟨.global, 2⟩
  | 2 => ⟨.tenant 7, 3⟩

/-- The two updates of one scope overlap, and the third keeps what they have stored. -/
theorem updates_kept_overlap :
    let steps := [.load 0, .load 1, .store 0, .store 1, .load 2, .store 2]
    let final := (steps.foldl (VersionCache.step threeUpdates) {}).inner
    (final .global = some 1 ∨ final .global = some 2) ∧ final (.tenant 7) = some 3 := by
  intro steps final
  have hc : Meets (VersionCache.step threeUpdates) (Current threeUpdates) {} steps :=
    ⟨trivial, trivial, ⟨_, rfl, fun _ _ => rfl⟩,
      ⟨_, rfl, fun _ hs => (update_of_ne hs _ _).symm⟩, trivial,
      ⟨_, rfl, fun _ _ => rfl⟩, trivial⟩
  have hk := updates_kept threeUpdates {} steps hc (by simp [steps, AllReturn])
  refine ⟨?_, rfl⟩
  obtain ⟨-, hn⟩ | ⟨i, -, -, -, hi, hf, -⟩ := hk .global
  · exact absurd rfl (hn 0 (by simp [steps]))
  · match i with
    | 0 => exact .inl hf
    | 1 => exact .inr hf
    | 2 => cases hi

end Uptrakit.Reload
