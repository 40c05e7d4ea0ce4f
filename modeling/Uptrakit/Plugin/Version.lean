import Mathlib.Data.Prod.Lex
import Mathlib.Data.String.Basic

/-!
# Versions

A `Version` (`crates/plugins/infrastructure/core/src/version.rs`) compares as a semantic version
with another one if both parse, and as text otherwise.  A version that does not parse may stand as
text between two that are ordered the other way round (`cmp_not_trans`); this is the only way in
which the comparison is no order (`cmp_order_iff`).
-/

namespace Uptrakit.Plugin

/-- `V` is the type of semantic versions. -/
structure Version (V : Type*) where
  raw : String
  parsed : Option V

namespace Version

variable {V : Type*} [LinearOrder V]

def eq (a b : Version V) : Bool :=
  match a.parsed, b.parsed with
  | some v, some w => v == w
  | _, _ => a.raw == b.raw

def cmp (a b : Version V) : Ordering :=
  match a.parsed, b.parsed with
  | some v, some w => compare v w
  | _, _ => compare a.raw b.raw

def hash (a : Version V) : V ⊕ String :=
  match a.parsed with
  | some v => .inl v
  | none => .inr a.raw

/-- `parse` is the parser of semantic versions. -/
def new (parse : String → Option V) (raw : String) : Version V := ⟨raw, parse raw⟩

variable {x y z : Version V} {parse : String → Option V} {a b c : String}

theorem cmp_eq_iff : cmp x y = .eq ↔ eq x y := by
  unfold cmp eq
  split <;> simp

theorem cmp_swap : cmp y x = (cmp x y).swap := by
  unfold cmp
  cases x.parsed <;> cases y.parsed <;> exact Std.OrientedOrd.eq_swap

/-- None of the strings that does not parse stands, as text, between two that do, against their
order as semantic versions. -/
def Unmixed (parse : String → Option V) (strings : Set String) : Prop :=
  ∀ a ∈ strings, ∀ b ∈ strings, ∀ u ∈ strings, ∀ v w, parse a = some v → parse b = some w →
    parse u = none → v ≤ w → ¬ (b < u ∧ u < a)

/-- The comparison is transitive among the strings exactly if they are unmixed. -/
theorem cmp_trans_iff {strings : Set String} :
    (∀ a ∈ strings, ∀ b ∈ strings, ∀ c ∈ strings,
      cmp (new parse a) (new parse b) ≠ .gt → cmp (new parse b) (new parse c) ≠ .gt →
        cmp (new parse a) (new parse c) ≠ .gt) ↔ Unmixed parse strings := by
  have hne {a b v} (ha : parse a = some v) (hb : parse b = none) : a ≠ b := by
    rintro rfl
    cases ha.symm.trans hb
  constructor
  · rintro h a ha b hb u hu v w hv hw hn hle ⟨hbu, hua⟩
    have ht := h a ha b hb u hu
    simp only [cmp, new, hv, hw, hn, ne_eq, compare_gt_iff_gt, not_lt] at ht
    exact (ht hle hbu.le).not_gt hua
  · intro h a ha b hb c hc hab hbc
    cases hv : parse a <;> cases hw : parse b <;> cases hp : parse c <;>
      simp only [cmp, new, hv, hw, hp, ne_eq, compare_gt_iff_gt, not_lt] at hab hbc ⊢
    -- Two strings that parse and one that does not: the three places that it may have.
    case none.some.some =>
      by_contra hlt
      exact h b hb c hc a ha _ _ hw hp hv hbc ⟨not_le.1 hlt, hab.lt_of_ne (hne hw hv).symm⟩
    case some.none.some =>
      by_contra hlt
      exact h c hc a ha b hb _ _ hp hv hw (not_le.1 hlt).le
        ⟨hab.lt_of_ne (hne hv hw), hbc.lt_of_ne (hne hp hw).symm⟩
    case some.some.none =>
      by_contra hlt
      exact h a ha b hb c hc _ _ hv hw hp hab ⟨hbc.lt_of_ne (hne hw hp), not_le.1 hlt⟩
    all_goals exact hab.trans hbc

theorem hash_eq_of_eq (h : eq (new parse a) (new parse b)) :
    hash (new parse a) = hash (new parse b) := by
  revert h
  fun_cases eq (new parse a) (new parse b) with
  | case1 v w hv hw =>
    intro h
    simp [hash, hv, hw, beq_iff_eq.1 h]
  | case2 =>
    intro h
    rw [show a = b from beq_iff_eq.1 h]

/-- Versions are equal exactly if they compare equal, with equal hashes; the comparison orders those
of the strings exactly if the strings are unmixed. -/
theorem cmp_order_iff (parse : String → Option V) (strings : Set String) :
    (∀ a ∈ strings, ∀ b ∈ strings, ∀ c ∈ strings,
      cmp (new parse b) (new parse a) = (cmp (new parse a) (new parse b)).swap ∧
      (cmp (new parse a) (new parse b) ≠ .gt → cmp (new parse b) (new parse c) ≠ .gt →
        cmp (new parse a) (new parse c) ≠ .gt) ∧
      (cmp (new parse a) (new parse b) = .eq ↔ eq (new parse a) (new parse b)) ∧
      (eq (new parse a) (new parse b) → hash (new parse a) = hash (new parse b))) ↔
    Unmixed parse strings := by
  refine Iff.trans ⟨?_, ?_⟩ cmp_trans_iff
  · exact fun h a ha b hb c hc => (h a ha b hb c hc).2.1
  · exact fun h a ha b hb c hc => ⟨cmp_swap, h a ha b hb c hc, cmp_eq_iff, hash_eq_of_eq⟩

def number (digits : List Char) : Option ℕ :=
  if digits = ['0'] ∨ digits.head?.any (· != '0') ∧ digits.all Char.isDigit then
    some (digits.foldl (fun n c => 10 * n + (c.toNat - '0'.toNat)) 0)
  else none

def triple (s : String) : Option (ℕ ×ₗ ℕ ×ₗ ℕ) :=
  match (s.toList.splitOn '.').mapM number with
  | some [major, minor, patch] => some (toLex (major, toLex (minor, patch)))
  | _ => none

/-- `1.5` is no semantic version, and stands after `1.10.0` as text. -/
theorem cmp_not_trans :
    cmp (new triple "1.9.0") (new triple "1.10.0") = .lt ∧
      cmp (new triple "1.10.0") (new triple "1.5") = .lt ∧
      cmp (new triple "1.9.0") (new triple "1.5") = .gt := by
  decide +kernel

end Version

end Uptrakit.Plugin
