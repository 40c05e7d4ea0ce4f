import Mathlib.Data.Option.Basic
import Mathlib.Data.List.Induction

/-!
# Maps whose entries expire

A `HashMap<K, i64>` from keys to expiry times that is written by `insert` and
emptied by `retain(|_, exp| *exp > now)`.  A key is present after a sequence of
writes exactly when its last `insert` has outlived every later `retain`.
-/

namespace Uptrakit.Data

open List Function

abbrev Expiring (κ : Type*) := κ → Option Int

namespace Expiring

variable {κ : Type*}

inductive Write (κ : Type*)
  | insert (key : κ) (exp : Int)
  | retain (now : Int)

/-- The write leaves an entry of `key` that expires at `exp` alone. -/
def Write.Spares (key : κ) (exp : Int) : Write κ → Prop
  | .insert key' _ => key' ≠ key
  | .retain now => now < exp

/-- The entry of `key` is there after the writes: it was there before, or one of
the writes put it there, and no later write replaced or removed it. -/
def InForce (start : Expiring κ) (writes : List (Write κ)) (key : κ) : Prop :=
  (∃ exp, start key = some exp ∧ ∀ w ∈ writes, w.Spares key exp) ∨
    ∃ before exp after, writes = before ++ .insert key exp :: after ∧
      ∀ w ∈ after, w.Spares key exp

variable [DecidableEq κ]

/-- `insert(key, exp)` and `retain(|_, exp| *exp > now)`. -/
def write (m : Expiring κ) : Write κ → Expiring κ
  | .insert key exp => Function.update m key (some exp)
  | .retain now => fun key => (m key).filter (now < ·)

@[simp] theorem write_insert_self (m : Expiring κ) (key : κ) (exp : Int) :
    m.write (.insert key exp) key = some exp := update_self ..

variable {m : Expiring κ} {w : Write κ} {key : κ} {exp : Int}

theorem write_of_spares (hm : m key = some exp) (hw : w.Spares key exp) :
    m.write w key = some exp := by
  cases w with
  | insert =>
    rw [write, update_of_ne (Ne.symm hw), hm]
  | retain now =>
    have hn : now < exp := hw
    simp [write, hm, hn]

theorem write_eq_some (h : m.write w key = some exp) :
    w = .insert key exp ∨ (m key = some exp ∧ w.Spares key exp) := by
  cases w with
  | insert key' =>
    by_cases hk : key' = key
    · subst hk
      rw [write_insert_self, Option.some.injEq] at h
      exact .inl (by rw [h])
    · rw [write, update_of_ne (Ne.symm hk)] at h
      exact .inr ⟨h, hk⟩
  | retain =>
    obtain ⟨hm, hn⟩ := Option.filter_eq_some_iff.mp h
    exact .inr ⟨hm, by simpa [Write.Spares] using hn⟩

theorem foldl_write_of_spares {writes : List (Write κ)} (hm : m key = some exp)
    (hwr : ∀ w ∈ writes, w.Spares key exp) : writes.foldl write m key = some exp :=
  foldlRecOn (motive := fun m : Expiring κ => m key = some exp) writes _ hm
    fun _ hm w hw => write_of_spares hm (hwr w hw)

/-- A key is present after the writes exactly when its entry is in force. -/
theorem isSome_foldl_write_iff (start : Expiring κ) (writes : List (Write κ)) (key : κ) :
    (writes.foldl write start key).isSome ↔ InForce start writes key := by
  constructor
  · intro h
    obtain ⟨exp, he⟩ := Option.isSome_iff_exists.mp h
    clear h
    -- The induction goes from the last write back to the one that put the entry there.
    induction writes using reverseRecOn with
    | nil => exact .inl ⟨exp, he, by simp⟩
    | append_singleton writes w ih =>
      rw [foldl_append] at he
      rcases write_eq_some he with rfl | ⟨hb, hsp⟩
      · exact .inr ⟨writes, exp, [], rfl, by simp⟩
      · rcases ih hb with ⟨exp', hs, ha⟩ | ⟨before, exp', after, rfl, ha⟩
        · rw [foldl_write_of_spares hs ha] at hb
          obtain rfl := Option.some.inj hb
          refine .inl ⟨exp', hs, ?_⟩
          exact forall_mem_append.2 ⟨ha, forall_mem_singleton.2 hsp⟩
        · rw [foldl_append, foldl_cons, foldl_write_of_spares (write_insert_self _ key _) ha] at hb
          obtain rfl := Option.some.inj hb
          refine .inr ⟨before, exp', after ++ [w], by simp, ?_⟩
          exact forall_mem_append.2 ⟨ha, forall_mem_singleton.2 hsp⟩
  · rintro (⟨exp, hs, ha⟩ | ⟨_, exp, _, rfl, ha⟩)
    · rw [foldl_write_of_spares hs ha]
      rfl
    · rw [foldl_append, foldl_cons]
      rw [foldl_write_of_spares (write_insert_self _ key _) ha]
      rfl

end Expiring

end Uptrakit.Data
