import Uptrakit.Text.Basic

/-!
# Replacing a text

`str::replace` on lists of symbols: the symbols may carry more than a character
(where it comes from, or a hole that stands for a whole value), `key` says which
character a symbol shows, if any.

A symbol whose character does not occur in the pattern separates the matches to its
left from those to its right (`replaceAux_append_cons`).  So texts that are put
into a template in delimiters foreign to the patterns do not run together with the
template: replacing in the filled template is replacing in the template and, apart
from that, in each of the texts (`replaceAux_fill`).
-/

namespace Uptrakit.Text

open List Function Nat

variable {α β ι : Type*}

/-! ## Occurrences -/

def opensWith (key : α → Option Char) (pat : List Char) (s : List α) : Bool :=
  (pat.map some).isPrefixOf (s.map key)

/-- The pattern occurs in the text. -/
def Occurs (key : α → Option Char) (pat : List Char) (s : List α) : Prop :=
  pat.map some <:+: s.map key

instance (key : α → Option Char) (pat : List Char) (s : List α) : Decidable (Occurs key pat s) :=
  inferInstanceAs (Decidable (_ <:+: _))

variable {key : α → Option Char} {pat pat' : List Char} {s : List α}

theorem opensWith_iff :
    opensWith key pat s = true ↔ pat.map some <+: s.map key := isPrefixOf_iff_prefix

theorem opensWith_append_cons {a : α} (ha : key a ∉ pat.map some) (s t : List α) :
    opensWith key pat (s ++ a :: t) = opensWith key pat s := by
  rw [Bool.eq_iff_iff, opensWith_iff, opensWith_iff, map_append]
  exact prefix_append_cons_iff ha

theorem length_le_of_opensWith (h : opensWith key pat s = true) : pat.length ≤ s.length := by
  simpa using (opensWith_iff.mp h).length_le

/-! ## Replacement -/

/-- Replace the matches of the pattern from left to right; the first `skip` symbols
belong to a match. -/
def replaceAux (key : α → Option Char) (pat : List Char) (rep : List α) : Nat → List α → List α
  | _, [] => []
  | skip + 1, _ :: s => replaceAux key pat rep skip s
  | 0, a :: s =>
    if opensWith key pat (a :: s) then rep ++ replaceAux key pat rep (pat.length - 1) s
    else a :: replaceAux key pat rep 0 s

/-- `str::replace` for a pattern that is not empty. -/
def replace (key : α → Option Char) (pat : List Char) (rep s : List α) : List α :=
  replaceAux key pat rep 0 s

section

variable {key : α → Option Char} {pat : List Char} {rep : List α}

/-- Replacement looks at nothing but the characters. -/
theorem map_replaceAux {key' : β → Option Char} (g : α → β) (hg : ∀ a, key' (g a) = key a)
    (skip : Nat) (s : List α) :
    (replaceAux key pat rep skip s).map g = replaceAux key' pat (rep.map g) skip (s.map g) := by
  have ho : ∀ s, opensWith key' pat (map g s) = opensWith key pat s := by
    intro s
    simp only [opensWith, map_map]
    congr 2
    funext x
    exact hg x
  fun_induction replaceAux key pat rep skip s with
  | case1 skip => cases skip <;> rfl
  | case2 _ _ _ ih => exact ih
  | case3 a s h ih | case4 a s h ih =>
    rw [← ho, map_cons] at h
    simp [replaceAux, h, ih]

theorem mem_replaceAux {skip x} (h : x ∈ replaceAux key pat rep skip s) : x ∈ rep ∨ x ∈ s := by
  fun_induction replaceAux key pat rep skip s with
  | case1 => cases h
  | case2 _ _ _ ih => exact (ih h).imp_right (mem_cons_of_mem _)
  | case3 _ _ _ ih =>
    obtain h | h := mem_append.mp h
    · exact .inl h
    · exact (ih h).imp_right (mem_cons_of_mem _)
  | case4 _ _ _ ih =>
    obtain rfl | h := mem_cons.mp h
    · exact .inr mem_cons_self
    · exact (ih h).imp_right (mem_cons_of_mem _)

theorem replace_eq_self (h : ¬ Occurs key pat s) : replace key pat rep s = s := by
  unfold replace
  induction s with
  | nil => rfl
  | cons _ _ ih =>
    rw [Occurs, map_cons, infix_cons_iff, not_or] at h
    rw [replaceAux, if_neg fun ho => h.1 (opensWith_iff.mp ho), ih h.2]

theorem replace_singleton (c s) :
    replace key [c] rep s = s.flatMap fun a => if key a = some c then rep else [a] := by
  unfold replace
  induction s with
  | nil => rfl
  | cons a s ih =>
    have ho : opensWith key [c] (a :: s) = decide (key a = some c) := by
      rw [Bool.eq_iff_iff, opensWith_iff]
      simp [eq_comm]
    by_cases h : key a = some c
    · simp [replaceAux, ho, h, ih]
    · simp [replaceAux, ho, h, ih]

/-- A symbol that does not occur in the pattern separates the matches. -/
theorem replaceAux_append_cons (hp : pat ≠ []) {a} (ha : key a ∉ pat.map some) {skip}
    (hs : skip ≤ s.length) (t : List α) : replaceAux key pat rep skip (s ++ a :: t) =
      replaceAux key pat rep skip s ++ a :: replaceAux key pat rep 0 t := by
  fun_induction replaceAux key pat rep skip s with
  | case1 skip =>
    obtain rfl : skip = 0 := by simpa using hs
    have ho : opensWith key pat (a :: t) = false := by
      have h := opensWith_append_cons ha [] t
      rw [nil_append] at h
      rw [h]
      cases pat with
      | nil => exact absurd rfl hp
      | cons => rfl
    simp [replaceAux, ho]
  | case2 _ _ _ ih => exact ih (le_of_succ_le_succ hs)
  | case3 b s h ih =>
    have hl := length_le_of_opensWith h
    rw [length_cons] at hl
    rw [← opensWith_append_cons ha, cons_append] at h
    rw [cons_append, replaceAux, if_pos h, ih (by omega), append_assoc]
  | case4 b s h ih =>
    rw [← opensWith_append_cons ha, cons_append] at h
    rw [cons_append, replaceAux, if_neg h, ih (zero_le _), cons_append]

variable {marked : α → Bool}

/-- Replacement by a text without marked symbols only removes marked symbols. -/
theorem countP_replaceAux_le (hr : rep.countP marked = 0) (skip s) :
    (replaceAux key pat rep skip s).countP marked ≤ (s.drop skip).countP marked := by
  fun_induction replaceAux key pat rep skip s with
  | case1 => simp
  | case2 _ _ _ ih => exact ih
  | case3 _ s _ ih =>
    rw [drop_zero, countP_cons, countP_append]
    have hd := (drop_sublist (pat.length - 1) s).countP_le (p := marked)
    omega
  | case4 _ _ _ ih =>
    rw [drop_zero] at ih ⊢
    rw [countP_cons, countP_cons]
    omega

/-- If the pattern occurs and all its characters are marked, marked symbols are
lost. -/
theorem countP_replace_lt (hpa : pat ≠ []) (hr : rep.countP marked = 0)
    (hm : ∀ a ∈ s, key a ∈ pat.map some → marked a = true) (h : Occurs key pat s) :
    (replace key pat rep s).countP marked < s.countP marked := by
  unfold replace
  induction s with
  | nil =>
    rw [Occurs, map_nil, infix_nil, map_eq_nil_iff] at h
    exact absurd h hpa
  | cons a s ih =>
    rw [replaceAux, countP_cons]
    split
    · rename_i ho
      have ha : marked a = true := by
        refine hm a mem_cons_self ?_
        rw [opensWith_iff] at ho
        cases pat with
        | nil => exact absurd rfl hpa
        | cons =>
          rw [map_cons, map_cons, cons_prefix_cons] at ho
          simp [ho.1]
      have hle : (replaceAux key pat rep (pat.length - 1) s).countP marked ≤ _ :=
        countP_replaceAux_le hr _ s
      have hd := (drop_sublist (pat.length - 1) s).countP_le (p := marked)
      rw [countP_append, if_pos ha]
      omega
    · rename_i ho
      rw [Occurs, map_cons, infix_cons_iff] at h
      have hs := h.resolve_left fun hp => ho (opensWith_iff.mpr hp)
      have hlt := ih (fun b hb => hm b (mem_cons_of_mem _ hb)) hs
      rw [countP_cons]
      omega

end

/-! ## Templates -/

/-- What a symbol of a template shows: holes show nothing. -/
def holeKey (key : α → Option Char) : α ⊕ ι → Option Char := Sum.elim key fun _ => none

def fill (text : ι → List α) (s : List (α ⊕ ι)) : List α :=
  s.flatMap (Sum.elim (fun a => [a]) text)

variable (text : ι → List α)

@[simp] theorem fill_inl (a : α) (s : List (α ⊕ ι)) :
    fill text (.inl a :: s) = a :: fill text s := rfl

@[simp] theorem fill_inr (i : ι) (s : List (α ⊕ ι)) :
    fill text (.inr i :: s) = text i ++ fill text s := rfl

theorem fill_map_inl (s : List α) : fill text (s.map .inl) = s := by
  induction s with
  | nil => rfl
  | cons _ _ ih => rw [map_cons, fill_inl, ih]

/-- The text is delimited by symbols that do not occur in the pattern. -/
def Delimited (key : α → Option Char) (pat : List Char) (s : List α) : Prop :=
  ∃ a mid b, s = a :: mid ++ [b] ∧ key a ∉ pat.map some ∧ key b ∉ pat.map some

theorem Delimited.mono (h : Delimited key pat' s) (hs : pat ⊆ pat') : Delimited key pat s := by
  obtain ⟨a, mid, b, heq, ha, hb⟩ := h
  exact ⟨a, mid, b, heq, fun h => ha (map_subset _ hs h), fun h => hb (map_subset _ hs h)⟩

theorem Delimited.replace {rep} (h : Delimited key pat' s) (hp : pat ≠ []) (hs : pat ⊆ pat') :
    Delimited key pat' (replace key pat rep s) := by
  obtain ⟨a, mid, b, rfl, ha, hb⟩ := h
  have ha' : key a ∉ pat.map some := fun h => ha (map_subset _ hs h)
  have hb' : key b ∉ pat.map some := fun h => hb (map_subset _ hs h)
  refine ⟨a, replaceAux key pat rep 0 mid, b, ?_, ha, hb⟩
  rw [Text.replace, replaceAux_append_cons hp hb' (zero_le _)]
  have hh : replaceAux key pat rep 0 ([] ++ a :: mid) = _ :=
    replaceAux_append_cons hp ha' (zero_le _) mid
  rw [nil_append] at hh
  rw [hh]
  rfl

section

variable {key : α → Option Char} {pat : List Char} {rep : List α} {text : ι → List α}

variable {s : List (α ⊕ ι)}

theorem opensWith_fill (ht : ∀ i, .inr i ∈ s → Delimited key pat (text i)) :
    opensWith key pat (fill text s) = opensWith (holeKey key) pat s := by
  induction pat generalizing s with
  | nil => rfl
  | cons c _ ih =>
    cases s with
    | nil => rfl
    | cons x s =>
      cases x with
      | inl a =>
        have hr := ih (s := s) fun i hi => by
          obtain ⟨a, mid, b, heq, ha, hb⟩ := ht i (mem_cons_of_mem _ hi)
          exact ⟨a, mid, b, heq, fun h => ha (mem_cons_of_mem _ h),
            fun h => hb (mem_cons_of_mem _ h)⟩
        simp only [opensWith] at hr
        simp only [opensWith, fill_inl, map_cons, isPrefixOf_cons_cons]
        rw [hr]
        rfl
      | inr i =>
        obtain ⟨a, _, b, heq, ha, -⟩ := ht i mem_cons_self
        have hne : (some c == key a) = false := by
          rw [beq_eq_false_iff_ne]
          exact fun h => ha (mem_cons.mpr (.inl h.symm))
        simp [opensWith, heq, hne, holeKey, isPrefixOf_cons_cons]

/-- A match in a template has no holes. -/
theorem isLeft_of_opensWith {a} (h : opensWith (holeKey key) pat (.inl a :: s) = true) :
    ∀ x ∈ s.take (pat.length - 1), x.isLeft = true := by
  intro x hx
  rw [opensWith_iff] at h
  cases pat with
  | nil => simp at hx
  | cons _ pat =>
    rw [map_cons, map_cons, cons_prefix_cons] at h
    have hk : (s.take pat.length).map (holeKey key) = pat.map some := by
      have heq := prefix_iff_eq_take.mp h.2
      rw [length_map] at heq
      rw [map_take, ← heq]
    have hm : holeKey key x ∈ pat.map some := by
      rw [← hk]
      exact mem_map_of_mem (by simpa using hx)
    cases x with
    | inl => rfl
    | inr => simp [holeKey] at hm

variable [DecidableEq ι]

omit [DecidableEq ι] in
theorem opensWith_inr (hp : pat ≠ []) (i : ι) (s : List (α ⊕ ι)) :
    opensWith (holeKey key) pat (.inr i :: s) = false := by
  cases pat with
  | nil => exact absurd rfl hp
  | cons => simp [opensWith, holeKey, isPrefixOf_cons_cons]

/-- Replacing in a filled template puts the replacement for the matches in the
template and replaces in each of the texts. -/
theorem replaceAux_fill (hp : pat ≠ []) {j} (hj : .inr j ∉ s)
    (ht : ∀ i, .inr i ∈ s → Delimited key pat (text i)) {skip}
    (hs : ∀ x ∈ s.take skip, x.isLeft = true) : replaceAux key pat rep skip (fill text s) =
      fill (update (fun i => replace key pat rep (text i)) j rep)
        (replaceAux (holeKey key) pat [.inr j] skip s) := by
  induction s generalizing skip with
  | nil => cases skip <;> rfl
  | cons x s ih =>
    rw [mem_cons, not_or] at hj
    have ht' := fun i hi => ht i (mem_cons_of_mem _ hi)
    cases x with
    | inl =>
      cases skip with
      | succ =>
        exact ih hj.2 ht' fun x hx => hs x (mem_cons_of_mem _ hx)
      | zero =>
        have ho := opensWith_fill ht
        rw [fill_inl] at ho ⊢
        simp only [replaceAux, ho]
        split
        · rename_i h
          rw [singleton_append, fill_inr, update_self, ih hj.2 ht' (isLeft_of_opensWith h)]
        · rw [fill_inl, ih hj.2 ht' (by simp)]
    | inr i =>
      obtain rfl : skip = 0 := by
        by_contra hne
        obtain ⟨k, rfl⟩ := exists_eq_succ_of_ne_zero hne
        cases hs _ (mem_cons_self)
      obtain ⟨a, mid, b, heq, -, hb⟩ := ht i mem_cons_self
      have ho : opensWith (holeKey key) pat (.inr i :: s) = false :=
        opensWith_inr hp i s
      have hne : i ≠ j := fun h => hj.1 (h ▸ rfl)
      simp only [replaceAux, ho]
      rw [if_neg Bool.false_ne_true, fill_inr, fill_inr, update_of_ne hne,
        ← ih hj.2 ht' (by simp), heq, append_assoc, singleton_append,
        replaceAux_append_cons hp hb (zero_le _), replace,
        replaceAux_append_cons hp hb (zero_le _)]
      simp [replaceAux]

end

/-! ## Successive replacement -/

section

variable (key : α → Option Char) (name : ι → List Char) (rep : ι → List α)

def replaceEach (order : List ι) (s : List α) : List α :=
  order.foldl (fun s i => replace key (name i) (rep i) s) s

def holes (order : List ι) (s : List α) : List (α ⊕ ι) :=
  replaceEach (holeKey key) name (fun i => [.inr i]) order (s.map .inl)

variable {key name rep}

@[simp] theorem replaceEach_cons (i order s) : replaceEach key name rep (i :: order) s =
      replaceEach key name rep order (replace key (name i) (rep i) s) := rfl

theorem map_replaceEach {key' : β → Option Char} (g : α → β) (hg : ∀ a, key' (g a) = key a)
    (order s) : (replaceEach key name rep order s).map g =
      replaceEach key' name (fun i => (rep i).map g) order (s.map g) := by
  induction order generalizing s with
  | nil => rfl
  | cons _ _ ih => rw [replaceEach_cons, ih, replace, map_replaceAux g hg]; rfl

variable {order : List ι}

theorem mem_replaceEach {s x} (h : x ∈ replaceEach key name rep order s) :
    (∃ i ∈ order, x ∈ rep i) ∨ x ∈ s := by
  induction order generalizing s with
  | nil => exact .inr h
  | cons j _ ih =>
    obtain ⟨i, hi, hx⟩ | h := ih h
    · exact .inl ⟨i, mem_cons_of_mem _ hi, hx⟩
    · exact (mem_replaceAux h).imp_left fun hx => ⟨j, mem_cons_self, hx⟩

variable {marked : α → Bool} {text : ι → List α}

theorem countP_replaceEach_le (hr : ∀ i ∈ order, (rep i).countP marked = 0) (s) :
    (replaceEach key name rep order s).countP marked ≤ s.countP marked := by
  induction order generalizing s with
  | nil => exact le_rfl
  | cons i _ ih =>
    refine (ih (fun j hj => hr j (mem_cons_of_mem _ hj)) _).trans ?_
    exact countP_replaceAux_le (hr i mem_cons_self) 0 s

/-- Marked symbols are lost as soon as one of the placeholders occurs. -/
theorem countP_replaceEach_lt (hn : ∀ i ∈ order, name i ≠ [])
    (hr : ∀ i ∈ order, (rep i).countP marked = 0) {s}
    (hm : ∀ i ∈ order, ∀ a ∈ s, key a ∈ (name i).map some → marked a = true)
    (h : ∃ i ∈ order, Occurs key (name i) s) :
    (replaceEach key name rep order s).countP marked < s.countP marked := by
  induction order with
  | nil => simp at h
  | cons i _ ih =>
    have hr' := fun j hj => hr j (mem_cons_of_mem _ hj)
    rw [replaceEach_cons]
    by_cases hi : Occurs key (name i) s
    · exact (countP_replaceEach_le hr' _).trans_lt
        (countP_replace_lt (hn i mem_cons_self) (hr i mem_cons_self)
          (hm i mem_cons_self) hi)
    · rw [replace_eq_self hi]
      refine ih (fun j hj => hn j (mem_cons_of_mem _ hj)) hr'
        (fun j hj => hm j (mem_cons_of_mem _ hj)) ?_
      obtain ⟨j, hj, ho⟩ := h
      obtain rfl | hj := mem_cons.mp hj
      · exact absurd ho hi
      · exact ⟨j, hj, ho⟩

theorem replaceEach_eq_self {s} (h : ∀ i ∈ order, ¬ Occurs key (name i) s) :
    replaceEach key name rep order s = s := by
  induction order with
  | nil => rfl
  | cons i _ ih =>
    rw [replaceEach_cons, replace_eq_self (h i mem_cons_self)]
    exact ih fun j hj => h j (mem_cons_of_mem _ hj)

variable [DecidableEq ι]

variable (key name rep) in
/-- What becomes of the texts of a template while the placeholders are replaced. -/
def textAfter : List ι → (ι → List α) → ι → List α
  | [], text => text
  | j :: order, text =>
    textAfter order (Function.update (fun i => replace key (name j) (rep j) (text i)) j (rep j))

theorem textAfter_of_not_mem {i} (hi : i ∉ order) :
    textAfter key name rep order text i = replaceEach key name rep order (text i) := by
  induction order generalizing text with
  | nil => rfl
  | cons _ _ ih =>
    rw [mem_cons, not_or] at hi
    rw [textAfter, ih hi.2, update_of_ne hi.1, replaceEach_cons]

/-- A placeholder is filled with what those after it make of its text. -/
theorem textAfter_of_append {before i after} (hn : (before ++ i :: after).Nodup) :
    textAfter key name rep (before ++ i :: after) text i =
      replaceEach key name rep after (rep i) := by
  induction before generalizing text with
  | nil =>
    rw [nil_append, textAfter, textAfter_of_not_mem (nodup_cons.mp hn).1, update_self]
  | cons _ _ ih => exact ih (nodup_cons.mp hn).2

/-- Replacing one placeholder after the other fills each hole of the template with
what the later replacements make of its text. -/
theorem replaceEach_fill {pats s} (text) (hn : order.Nodup) (hna : ∀ i ∈ order, name i ≠ [])
    (hp : ∀ i ∈ order, name i ⊆ pats) (hr : ∀ i ∈ order, Delimited key pats (rep i))
    (hs : ∀ i ∈ order, .inr i ∉ s) (ht : ∀ i, .inr i ∈ s → Delimited key pats (text i)) :
    replaceEach key name rep order (fill text s) =
      fill (textAfter key name rep order text)
        (replaceEach (holeKey key) name (fun i => [.inr i]) order s) := by
  induction order generalizing s text with
  | nil => rfl
  | cons j _ ih =>
    obtain ⟨hj, hn⟩ := nodup_cons.mp hn
    have hjn := hna j mem_cons_self
    have hjp := hp j mem_cons_self
    have hjs := hs j mem_cons_self
    have hm : ∀ i, .inr i ∈ replace (holeKey key) (name j) [.inr j] s → i = j ∨ .inr i ∈ s :=
      fun i hi => (mem_replaceAux hi).imp_left fun h => by simpa using h
    rw [replaceEach_cons, replace,
      replaceAux_fill hjn hjs (fun i hi => (ht i hi).mono hjp) (by simp)]
    refine ih _ hn (fun i hi => hna i (mem_cons_of_mem _ hi))
      (fun i hi => hp i (mem_cons_of_mem _ hi))
      (fun i hi => hr i (mem_cons_of_mem _ hi)) ?_ ?_
    · intro i hi h
      obtain rfl | h := hm i h
      · exact hj hi
      · exact hs i (mem_cons_of_mem _ hi) h
    · intro i hi
      by_cases hij : i = j
      · rw [hij, update_self]
        exact hr j mem_cons_self
      · rw [update_of_ne hij]
        exact (ht i ((hm i hi).resolve_left hij)).replace hjn hjp

end

end Uptrakit.Text
