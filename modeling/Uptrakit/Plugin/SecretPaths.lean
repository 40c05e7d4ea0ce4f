import Mathlib.Data.Set.Basic

/-!
# Masked configurations

The secrets of a configuration are addressed by dotted paths, and `mask_present_keys`
(`crates/plugins/infrastructure/core/src/secret_paths.rs`) replaces what it finds there.  A path
may lead into what another one has replaced, before or after it.  The masked configuration is the
same whatever stands at the paths, and has no other keys (`maskPresentKeys_replaceAll`).
-/

namespace Uptrakit.Plugin.SecretPaths

open Function

/-- Objects are equal if they have the same value for every key. -/
inductive Value
  | null
  | bool (b : Bool)
  | number (text : String)
  | string (s : String)
  | array (values : List Value)
  | object (fields : String → Option Value)

def secretSentinel : String := "***"

def segments (path : String) : List String := (path.toList.splitOn '.').map String.ofList

/-- The assignment to what `navigate_mut` finds, if it finds something. -/
def assign (new : Value) : List String → Value → Value
  | [], _ => new
  | segment :: rest, .object fields =>
    .object (update fields segment ((fields segment).map (assign new rest)))
  | _ :: _, value => value

def maskPresentKeys (value : Value) (paths : List String) : Value :=
  paths.foldl (fun masked path => assign (.string secretSentinel) (segments path) masked) value

def replaceAll {paths : List String} (replacements : List ({path // path ∈ paths} × Value))
    (value : Value) : Value :=
  replacements.foldl (fun value r => assign r.2 (segments r.1) value) value

def child : Value → String ⊕ Nat → Option Value
  | .object fields, .inl key => fields key
  | .array values, .inr i => values[i]?
  | _, _ => none

def reach : List (String ⊕ Nat) → Value → Option Value
  | [], value => some value
  | step :: rest, value => (child value step).bind (reach rest)

def keys (value : Value) : Set (List (String ⊕ Nat)) :=
  {path | ∃ found, reach path value = some found}

theorem assign_assign (new old : Value) (p : List String) (value : Value) :
    assign new p (assign old p value) = assign new p value := by
  induction p generalizing value with
  | nil => rfl
  | cons a p ih =>
    cases value with
    | object fields => simp [assign, comp_def, ih]
    | _ => rfl

/-- An assignment after another one comes before it, with another value for it, or hides it. -/
theorem assign_assign_cases (new old : Value) (q p : List String) (value : Value) :
    (∃ old', assign new q (assign old p value) = assign old' p (assign new q value)) ∨
      assign new q (assign old p value) = assign new q value := by
  induction p generalizing q value with
  | nil =>
    cases q with
    | nil => exact .inr rfl
    | cons b q => exact .inl ⟨assign new (b :: q) old, rfl⟩
  | cons a p ih =>
    cases q with
    | nil => exact .inr rfl
    | cons b q =>
      cases value with
      | object fields =>
        by_cases hab : a = b
        · subst hab
          cases hf : fields a with
          | none => exact .inr (by simp [assign, hf])
          | some field =>
            obtain ⟨old', h⟩ | h := ih q field
            · exact .inl ⟨old', by simp [assign, hf, h]⟩
            · exact .inr (by simp [assign, hf, h])
        · refine .inl ⟨old, ?_⟩
          simp [assign, update_of_ne hab, update_of_ne (Ne.symm hab), update_comm hab]
      | _ => exact .inr rfl

/-- What stands at one of the paths does not matter. -/
theorem maskPresentKeys_assign {paths : List String} {path} (hp : path ∈ paths)
    (new value : Value) :
    maskPresentKeys (assign new (segments path) value) paths = maskPresentKeys value paths := by
  induction paths generalizing new value with
  | nil => cases hp
  | cons first paths ih =>
    rcases List.mem_cons.1 hp with rfl | hr
    · exact congrArg (maskPresentKeys · paths) (assign_assign _ _ _ _)
    · obtain ⟨new', h⟩ | h :=
        assign_assign_cases (.string secretSentinel) new (segments first) (segments path) value
      · exact (congrArg (maskPresentKeys · paths) h).trans (ih hr new' _)
      · exact congrArg (maskPresentKeys · paths) h

theorem keys_assign_subset (s : String) (p : List String) (value : Value) :
    keys (assign (.string s) p value) ⊆ keys value := by
  intro path h
  induction p generalizing value path with
  | nil =>
    cases path with
    | nil => exact ⟨value, rfl⟩
    | cons => simp [keys, assign, reach, child] at h
  | cons a p ih =>
    obtain ⟨found, h⟩ := h
    cases value with
    | object fields =>
      match path with
      | [] => exact ⟨_, rfl⟩
      | .inr _ :: _ => cases h
      | .inl key :: rest =>
        obtain ⟨field, hf, hr⟩ := Option.bind_eq_some_iff.1 h
        by_cases hk : key = a
        · subst hk
          rw [assign, child, update_self, Option.map_eq_some_iff] at hf
          obtain ⟨field, hf, rfl⟩ := hf
          obtain ⟨found, h⟩ := ih field ⟨found, hr⟩
          exact ⟨found, Option.bind_eq_some_iff.2 ⟨field, hf, h⟩⟩
        · rw [assign, child, update_of_ne hk] at hf
          exact ⟨found, Option.bind_eq_some_iff.2 ⟨field, hf, hr⟩⟩
    | _ => exact ⟨found, h⟩

/-- The masked value shows nothing of what stands at the paths, and has no key that the value has
not. -/
theorem maskPresentKeys_replaceAll (value : Value) (paths : List String)
    (replacements : List ({path // path ∈ paths} × Value)) :
    maskPresentKeys (replaceAll replacements value) paths = maskPresentKeys value paths ∧
      keys (maskPresentKeys value paths) ⊆ keys value := by
  constructor
  · induction replacements generalizing value with
    | nil => rfl
    | cons r replacements ih => exact (ih _).trans (maskPresentKeys_assign r.1.2 r.2 value)
  · induction paths generalizing value with
    | nil => exact subset_rfl
    | cons path paths ih => exact (ih _ []).trans (keys_assign_subset _ _ _)

end Uptrakit.Plugin.SecretPaths
