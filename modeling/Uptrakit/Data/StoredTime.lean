import Mathlib.Algebra.Group.Nat.Defs
import Mathlib.Algebra.Order.Group.Int

/-!
# Times in a database

Times are in nanoseconds since the epoch.  PostgreSQL keeps microseconds.  SQLite keeps the text of
RFC 3339, in UTC and with as many digits of the second as it needs, and compares the texts.  Within
a second they are not ordered as the times are, since `Z` comes after all digits: a text comes after
those that go on with more digits (`lt_iff_of_le`).
-/

namespace Uptrakit.Data

open List

inductive Backend
  | sqlite
  | postgres
  deriving DecidableEq

/-- The digits of a fraction of `10 ^ k` parts, up to the last one that is not zero. -/
def fractionDigits : Nat → Nat → List Char
  | 0, _ => []
  | k + 1, n => if n = 0 then [] else Nat.digitChar (n / 10 ^ k) :: fractionDigits k (n % 10 ^ k)

def fractionText (nanos : Nat) : List Char :=
  if nanos = 0 then ['Z'] else '.' :: (fractionDigits 9 nanos ++ ['Z'])

def nanosPerSecond : Int := 1000000000

namespace Backend

def stored : Backend → Int → Int
  | sqlite, time => time
  | postgres, time => time / 1000 * 1000

/-- `a < b` in a statement.  The text of the seconds has a fixed length. -/
def lt : Backend → Int → Int → Bool
  | sqlite, a, b =>
    a / nanosPerSecond < b / nanosPerSecond ||
      a / nanosPerSecond == b / nanosPerSecond &&
        fractionText (a % nanosPerSecond).toNat < fractionText (b % nanosPerSecond).toNat
  | postgres, a, b => a / 1000 < b / 1000

/-- `a <= b` in a statement. -/
def le (db : Backend) (a b : Int) : Bool := !db.lt b a

end Backend

/-! ## The order of the texts -/

/-- The value of the last digit of a fraction of `10 ^ k` parts. -/
def lastDigit : Nat → Nat → Nat
  | 0, _ => 1
  | k + 1, n => if n = 0 then 10 ^ (k + 1) else lastDigit k (n % 10 ^ k)

/-- The first digit of a fraction, and the rest. -/
theorem exists_digit {k n : Nat} (h : n < 10 ^ (k + 1)) :
    n / 10 ^ k < 10 ∧ n % 10 ^ k < 10 ^ k ∧ 10 ^ k * (n / 10 ^ k) + n % 10 ^ k = n := by
  have hp : 0 < 10 ^ k := Nat.pow_pos (by decide)
  exact ⟨Nat.div_lt_of_lt_mul (by rwa [Nat.pow_succ] at h), Nat.mod_lt n hp, Nat.div_add_mod n _⟩

theorem lastDigit_pos (k n : Nat) : 0 < lastDigit k n := by
  induction k generalizing n with
  | zero => exact Nat.one_pos
  | succ k ih =>
    rw [lastDigit]
    split
    · exact Nat.pow_pos (by decide)
    · exact ih _

theorem add_lastDigit_le {k n : Nat} (h : n < 10 ^ k) : n + lastDigit k n ≤ 10 ^ k := by
  induction k generalizing n with
  | zero => simp_all [lastDigit]
  | succ k ih =>
    rw [lastDigit]
    split
    · simp_all
    · obtain ⟨hd, hr, hs⟩ := exists_digit h
      have hl := ih hr
      have ht := Nat.mul_le_mul_left (10 ^ k) (Nat.succ_le_of_lt hd)
      rw [Nat.mul_succ] at ht
      rw [Nat.pow_succ]
      omega

theorem digitChar_lt_digitChar {a b : Nat} (hb : b < 10) (h : a < b) :
    Nat.digitChar a < Nat.digitChar b := by
  have hd : ∀ b < 10, ∀ a < b, Nat.digitChar a < Nat.digitChar b := by decide
  exact hd b hb a h

theorem digitChar_lt_Z {a : Nat} (h : a < 10) : Nat.digitChar a < 'Z' := by
  have hd : ∀ a < 10, Nat.digitChar a < 'Z' := by decide
  exact hd a h

/-- A fraction that goes on where another one ends comes before it. -/
theorem fractionDigits_lt_of_lt {k f g : Nat} (hf : f < 10 ^ k) (hgf : g < f)
    (h : f < g + lastDigit k g) : fractionDigits k f ++ ['Z'] < fractionDigits k g ++ ['Z'] := by
  induction k generalizing f g with
  | zero => omega
  | succ k ih =>
    obtain ⟨hd, hr, hsu⟩ := exists_digit hf
    rw [fractionDigits, if_neg (by omega), cons_append]
    by_cases hg : g = 0
    · rw [hg, fractionDigits, if_pos rfl, nil_append]
      exact cons_lt_cons_iff.2 (.inl (digitChar_lt_Z hd))
    · obtain ⟨-, hr', hsu'⟩ := exists_digit (hgf.trans hf)
      rw [lastDigit, if_neg hg] at h
      have hl := add_lastDigit_le hr'
      have hs : f / 10 ^ k = g / 10 ^ k := by
        apply le_antisymm
        · rw [← Nat.lt_add_one_iff, Nat.div_lt_iff_lt_mul (Nat.pow_pos (by decide)), Nat.add_mul,
            Nat.one_mul, Nat.mul_comm]
          omega
        · exact Nat.div_le_div_right hgf.le
      rw [hs] at hsu ⊢
      rw [fractionDigits, if_neg hg, cons_append]
      exact cons_lt_cons_iff.2 (.inr ⟨rfl, ih hr (by omega) (by omega)⟩)

/-- Other fractions are ordered as the times are. -/
theorem fractionDigits_lt_of_le {k f g : Nat} (hf : f < 10 ^ k) (h : g + lastDigit k g ≤ f) :
    fractionDigits k g ++ ['Z'] < fractionDigits k f ++ ['Z'] := by
  induction k generalizing f g with
  | zero => simp_all [lastDigit]
  | succ k ih =>
    rw [lastDigit] at h
    split at h
    · omega
    · rename_i hg
      obtain ⟨hd, hr, hs⟩ := exists_digit hf
      rw [fractionDigits, fractionDigits, if_neg hg, if_neg (by omega), cons_append, cons_append,
        cons_lt_cons_iff]
      have hle : g / 10 ^ k ≤ f / 10 ^ k := Nat.div_le_div_right (by omega)
      rcases hle.lt_or_eq with hlt | heq
      · exact .inl (digitChar_lt_digitChar hd hlt)
      · have hs' := Nat.div_add_mod g (10 ^ k)
        rw [heq] at hs' ⊢
        exact .inr ⟨rfl, ih hr (by omega)⟩

/-- The text of a later time of the second comes first where it goes on after that of the earlier
one. -/
theorem fractionText_lt_of_lt {f g : Nat} (hf : f < 10 ^ 9) (hgf : g < f)
    (h : f < g + lastDigit 9 g) : fractionText f < fractionText g := by
  unfold fractionText
  rw [if_neg (by omega)]
  split
  · exact cons_lt_cons_iff.2 (.inl (by decide))
  · exact cons_lt_cons_iff.2 (.inr ⟨rfl, fractionDigits_lt_of_lt hf hgf h⟩)

theorem fractionText_lt_of_le {f g : Nat} (hf : f < 10 ^ 9) (h : g + lastDigit 9 g ≤ f) :
    fractionText g < fractionText f := by
  unfold fractionText
  by_cases hg : g = 0
  · rw [hg] at h
    have hl : lastDigit 9 0 = 10 ^ 9 := rfl
    omega
  · rw [if_neg hg, if_neg (by omega)]
    exact cons_lt_cons_iff.2 (.inr ⟨rfl, fractionDigits_lt_of_le hf h⟩)

example : fractionText 510000000 < fractionText 500000000 := by decide +kernel

/-! ## The order of the times -/

namespace Backend

/-- The time from which on all times are later in a statement. -/
def next : Backend → Int → Int
  | sqlite, time => time + lastDigit 9 (time % nanosPerSecond).toNat
  | postgres, time => (time / 1000 + 1) * 1000

variable {db : Backend} {a b : Int}

theorem sqlite_lt_iff_of_lt (h : a < b) :
    (sqlite.lt b a = true ↔ b < sqlite.next a) ∧ (sqlite.lt a b = true ↔ sqlite.next a ≤ b) := by
  simp only [lt, next, Bool.or_eq_true, Bool.and_eq_true, beq_iff_eq, decide_eq_true_eq]
  unfold nanosPerSecond
  have ha : (a % 1000000000).toNat < 10 ^ 9 := by omega
  have hla := add_lastDigit_le ha
  rcases (Int.ediv_le_ediv (by decide) h.le : a / 1000000000 ≤ b / 1000000000).lt_or_eq with
    hlt | heq
  · -- The seconds differ, and the text of the earlier one leads to the next second at most.
    refine ⟨iff_of_false ?_ ?_, iff_of_true (.inl hlt) ?_⟩ <;> omega
  · have hb : (b % 1000000000).toNat < 10 ^ 9 := by omega
    have hl : (a % 1000000000).toNat < (b % 1000000000).toNat := by omega
    by_cases hn : (b % 1000000000).toNat <
        (a % 1000000000).toNat + lastDigit 9 (a % 1000000000).toNat
    · have ht := fractionText_lt_of_lt hb hl hn
      refine ⟨iff_of_true (.inr ⟨heq.symm, ht⟩) (by omega), iff_of_false ?_ (by omega)⟩
      rintro (hlt | ⟨-, ht'⟩)
      · omega
      · exact List.lt_asymm ht ht'
    · have ht := fractionText_lt_of_le hb (Nat.not_lt.1 hn)
      refine ⟨iff_of_false ?_ (by omega), iff_of_true (.inr ⟨heq, ht⟩) (by omega)⟩
      rintro (hlt | ⟨-, ht'⟩)
      · omega
      · exact List.lt_asymm ht ht'

theorem lt_self (db : Backend) (a : Int) : db.lt a a = false := by
  cases db <;> simp [lt]

theorem lt_next (db : Backend) (a : Int) : a < db.next a := by
  cases db with
  | sqlite =>
    have hp : 0 < lastDigit 9 (a % nanosPerSecond).toNat := lastDigit_pos _ _
    simp only [next]
    omega
  | postgres =>
    simp only [next]
    omega

/-- A time that is not earlier comes before another one where its text goes on after the other
one. -/
theorem lt_iff_of_le (h : a ≤ b) :
    db.lt b a = true ↔ db = sqlite ∧ a < b ∧ b < sqlite.next a := by
  cases db with
  | sqlite =>
    rcases h.lt_or_eq with hlt | rfl
    · simpa [hlt] using (sqlite_lt_iff_of_lt hlt).1
    · simp [lt_self]
  | postgres =>
    simp only [lt, decide_eq_true_eq, reduceCtorEq, false_and, iff_false]
    omega

theorem le_iff_of_le (h : a ≤ b) : db.le b a = true ↔ b < db.next a := by
  rw [le, Bool.not_eq_true', ← Bool.not_eq_true]
  rcases h.lt_or_eq with hlt | rfl
  · cases db with
    | sqlite => rw [(sqlite_lt_iff_of_lt hlt).2, not_le]
    | postgres =>
      simp only [lt, next, decide_eq_true_eq]
      omega
  · simpa [lt_self] using lt_next db a

theorem stored_le (db : Backend) (time : Int) : db.stored time ≤ time := by
  cases db with
  | sqlite => exact le_rfl
  | postgres =>
    rw [stored]
    omega

end Backend

end Uptrakit.Data
