import Mathlib.Data.List.DropRight
import Mathlib.Data.List.Infix
import Mathlib.Data.String.Basic

/-!
# Strings as lists of characters

The string operations of the standard library of the modelled programs, on
`String` but defined through `String.toList`, so that they compute inside the
kernel and are reasoned about with the list library.  Nothing here depends on
a particular program.
-/

namespace Uptrakit.Text

open List

/-- `str::starts_with` for a string pattern. -/
def startsWith (s pre : String) : Bool := pre.toList.isPrefixOf s.toList

/-- `str::strip_prefix`: the rest of `s` after `pre`, when `s` starts with it. -/
def stripPrefix (s pre : String) : Option String :=
  if startsWith s pre then some (String.ofList (s.toList.drop pre.toList.length)) else none

/-- `str::trim_matches` for a character. -/
def trimMatches (s : String) (c : Char) : String :=
  String.ofList ((s.toList.dropWhile (· == c)).rdropWhile (· == c))

/-- `str::ends_with` for a string pattern. -/
def endsWith (s suffix : String) : Bool := suffix.toList.isSuffixOf s.toList

/-- The property `White_Space` of Unicode. -/
def isWhitespace (c : Char) : Bool :=
  let n := c.toNat
  (9 ≤ n && n ≤ 13) || n == 32 || n == 0x85 || n == 0xA0 || n == 0x1680 ||
    (0x2000 ≤ n && n ≤ 0x200A) || n == 0x2028 || n == 0x2029 || n == 0x202F || n == 0x205F ||
    n == 0x3000

/-- `str::trim`. -/
def trim (s : String) : String :=
  String.ofList ((s.toList.dropWhile isWhitespace).rdropWhile isWhitespace)

/-- `str::to_ascii_lowercase`. -/
def toAsciiLowercase (s : String) : String := String.ofList (s.toList.map Char.toLower)

/-- `str::len`: the length in bytes of the UTF-8 encoding. -/
def len (s : String) : Nat := s.utf8ByteSize

variable {s pre : String} {c : Char}

theorem startsWith_iff : startsWith s pre = true ↔ ∃ rest, s.toList = pre.toList ++ rest := by
  rw [startsWith, isPrefixOf_iff_prefix]
  exact ⟨fun ⟨rest, h⟩ => ⟨rest, h.symm⟩, fun ⟨rest, h⟩ => ⟨rest, h.symm⟩⟩

/-- What ends with `suffix` ends with its last character. -/
theorem getLast?_of_endsWith {suffix : String} (hc : suffix.toList.getLast? = some c)
    (h : endsWith s suffix = true) : s.toList.getLast? = some c := by
  rw [endsWith, isSuffixOf_iff_suffix] at h
  obtain ⟨front, hf⟩ := h
  rw [← hf, getLast?_append, hc, Option.some_or]

theorem stripPrefix_eq_some {rest} :
    stripPrefix s pre = some rest ↔ s.toList = pre.toList ++ rest.toList := by
  unfold stripPrefix
  split
  · rename_i h
    obtain ⟨tail, ht⟩ := startsWith_iff.mp h
    rw [ht, Option.some.injEq, append_cancel_left_eq]
    constructor
    · rintro rfl
      simp
    · rintro rfl
      simp
  · rename_i h
    refine ⟨fun hn => by simp at hn, fun hs => absurd (startsWith_iff.mpr ⟨_, hs⟩) h⟩

/-- What stands between two delimiters, and holds none. -/
theorem trimMatches_of_delimited {body} (hbo : body ≠ []) (hc : c ∉ body)
    (hs : s.toList = c :: (body ++ [c])) : trimMatches s c = String.ofList body := by
  have hf : s.toList.dropWhile (· == c) = body ++ [c] := by
    obtain ⟨b, _, rfl⟩ := exists_cons_of_ne_nil hbo
    rw [hs, dropWhile_cons_of_pos (p := (· == c)) (beq_self_eq_true c), cons_append,
      dropWhile_cons_of_neg]
    intro hb
    exact hc (beq_iff_eq.mp hb ▸ mem_cons_self)
  have hba : (body ++ [c]).rdropWhile (· == c) = body := by
    rw [rdropWhile_concat_pos (· == c) _ _ (beq_self_eq_true c), rdropWhile_eq_self_iff]
    intro hne hl
    exact hc (beq_iff_eq.mp hl ▸ getLast_mem hne)
  rw [trimMatches, hf, hba]

/-- A string opening with `c` is longer than one byte exactly when something
follows `c`, for a one-byte character `c`. -/
theorem one_lt_len_iff {tail} (hc : c.utf8Size = 1) (hs : s.toList = c :: tail) :
    1 < len s ↔ tail ≠ [] := by
  have hl : len s = String.utf8Len tail + 1 := by
    rw [len, ← String.ofList_toList (s := s), hs, String.utf8ByteSize_ofList,
      String.utf8Len_cons, hc]
  rw [hl]
  cases tail with
  | nil => simp
  | cons d =>
    have := Char.utf8Size_pos d
    simp only [String.utf8Len_cons, ne_eq, reduceCtorEq, not_false_eq_true, iff_true]
    omega

/-- A prefix without `a` ends before the first `a`. -/
theorem prefix_append_cons_iff {α : Type*} {l s t : List α} {a : α} (ha : a ∉ l) :
    l <+: s ++ a :: t ↔ l <+: s := by
  induction l generalizing s with
  | nil => simp
  | cons _ _ ih =>
    rw [mem_cons, not_or] at ha
    cases s with
    | nil => simp [Ne.symm ha.1]
    | cons => simp only [cons_append, cons_prefix_cons, ih ha.2]

/-- A dotted path `stem.tail` starts with `w.`, for a single segment `w`, exactly
when `w` is the whole of `stem` or `stem` itself starts with `w.`. -/
theorem segment_prefix_iff {α : Type*} {w stem tail : List α} {sep : α} (hw : sep ∉ w) :
    w ++ [sep] <+: stem ++ sep :: tail ↔ stem = w ∨ w ++ [sep] <+: stem := by
  induction w generalizing stem with
  | nil =>
    cases stem with
    | nil | cons => simp
  | cons _ _ ih =>
    rw [mem_cons, not_or] at hw
    cases stem with
    | nil => simp [Ne.symm hw.1]
    | cons =>
      simp only [cons_append, cons_prefix_cons, ih hw.2, cons.injEq]
      constructor
      · rintro ⟨rfl, h⟩
        simpa using h
      · rintro (⟨rfl, h⟩ | ⟨rfl, h⟩)
        · exact ⟨rfl, .inl h⟩
        · exact ⟨rfl, .inr h⟩

end Uptrakit.Text
