import Mathlib.Data.List.Basic
import Mathlib.Data.List.Pairwise

/-!
# Tables and statements

A table is a list of rows that satisfies its integrity constraints (primary key
and unique indexes); a table that breaks them cannot be built.  A statement that
would break them fails and changes nothing.
-/

namespace Uptrakit.Concurrent

/-- `UPDATE … SET set WHERE guard`. -/
structure Update (ρ : Type*) where
  guard : ρ → Bool
  set : ρ → ρ

namespace Update

variable {ρ : Type*} (u : Update ρ)

def row (r : ρ) : ρ := if u.guard r then u.set r else r

end Update

inductive Violation
  | constraint

/-- Rows that satisfy the integrity constraints of the table. -/
structure Table {ρ : Type*} (Valid : List ρ → Prop) where
  rows : List ρ
  valid : Valid rows

namespace Table

variable {ρ : Type*} {Valid : List ρ → Prop} [DecidablePred Valid]

def ofRows (rows : List ρ) : Except Violation (Table Valid) :=
  if h : Valid rows then .ok ⟨rows, h⟩ else .error .constraint

def update (t : Table Valid) (u : Update ρ) : Except Violation (Table Valid) :=
  ofRows (t.rows.map u.row)

def insert (t : Table Valid) (new : List ρ) : Except Violation (Table Valid) :=
  ofRows (t.rows ++ new)

def affected (t : Table Valid) (u : Update ρ) : Nat := t.rows.countP u.guard

variable {rows : List ρ}

theorem rows_of_ofRows {t : Table Valid} (h : ofRows rows = .ok t) : t.rows = rows := by
  unfold ofRows at h
  split at h
  · cases h
    rfl
  · cases h

theorem ofRows_error {e} (h : (ofRows rows : Except Violation (Table Valid)) = .error e) :
    ¬ Valid rows := by
  unfold ofRows at h
  split at h
  · cases h
  · assumption

end Table

/-! ## Constraints between two rows -/

/-- No two rows clash: primary keys and unique indexes. -/
def Apart {ρ : Type*} (clash : ρ → ρ → Prop) (rows : List ρ) : Prop :=
  rows.Pairwise fun a b => ¬ clash a b

instance {ρ : Type*} (clash : ρ → ρ → Prop) [DecidableRel clash] : DecidablePred (Apart clash) :=
  fun _ => inferInstanceAs (Decidable (List.Pairwise _ _))

section

variable {ρ : Type*} {clash : ρ → ρ → Prop}

/-- Rows that clash are one row. -/
theorem Apart.eq_of_clash {rows} (h : Apart clash rows) (hs : ∀ a b, clash a b → clash b a) {a b}
    (ha : a ∈ rows) (hb : b ∈ rows) (hc : clash a b) : a = b := by
  have : Std.Symm fun a b => ¬ clash a b := ⟨fun a b h hba => h (hs b a hba)⟩
  by_contra hne
  exact List.Pairwise.forall h ha hb hne hc

/-- An update that cannot break the constraints: it makes no two rows clash. -/
def Table.rewrite (t : Table (Apart clash)) (f : ρ → ρ)
    (hf : ∀ a b, clash (f a) (f b) → clash a b) : Table (Apart clash) where
  rows := t.rows.map f
  valid := List.pairwise_map.mpr (t.valid.imp fun h hc => h (hf _ _ hc))

end

end Uptrakit.Concurrent
