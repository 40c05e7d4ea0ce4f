import Mathlib.Algebra.GroupWithZero.Nat
import Mathlib.Algebra.Order.BigOperators.Group.List
import Uptrakit.Text.Replace

/-!
# Quoting in the shell

The quoting rules of the shell (backslash, single quotes, double quotes, and the single quotes after
a dollar sign that know escapes) and its comments as a reader of characters: which characters are
taken literally and which keep their meaning for the shell.  Where the shell reads by other rules
(backquotes, arithmetic, here-documents, and what follows `$(` or a braced parameter that is more
than a name inside double quotes) the reader stops.

A template is read with its holes: a hole that stands where the reader is outside any quoting, and
not right after a dollar sign, is read as the literal characters of its value.
-/

namespace Uptrakit.Text

open List

variable {α ι : Type*}

def quote : Char := '\x27'

def backquote : Char := '\x60'

/-- What has been read last, outside quotes. -/
inductive Position
  /-- A blank or an operator, after which a word starts. -/
  | start
  | word
  /-- A dollar sign that is not the second of two. -/
  | dollar
  | paren
  | less
  deriving DecidableEq

namespace Position

/-- A number sign here starts a comment. -/
def startsWord : Position → Bool
  | start | paren | less => true
  | word | dollar => false

def next (p : Position) (c : Char) : Position :=
  if c = '$' ∧ p ≠ dollar then dollar
  else if c = '(' then paren
  else if c = '<' then less
  else if [' ', '\t', '\n', ';', '&', '|', ')', '>'].contains c then start
  else word

/-- A backquote, arithmetic (also that of a subscript) or a here-document. -/
def leaves (p : Position) (c : Char) : Bool :=
  c = backquote || p = paren && c = '(' || !p.startsWord && c = '[' || p = less && c = '<'

end Position

inductive Mode (α : Type*)
  | bare (p : Position)
  /-- After a backslash outside quotes. -/
  | escaped (p : Position)
  | comment
  | single
  /-- In single quotes after a dollar sign. -/
  | dollarSingle
  | dollarEscaped
  | double
  /-- After a dollar sign inside double quotes. -/
  | doubleDollar
  /-- After a backslash inside double quotes. -/
  | doubleEscaped (backslash : α)
  /-- In a parameter in braces. -/
  | parameter (inDouble : Bool)
  /-- Where the shell reads by other rules. -/
  | unread
  deriving DecidableEq

inductive Reading (α : Type*)
  /-- Outside quotes. -/
  | bare (a : α)
  /-- Quoted. -/
  | literal (a : α)
  /-- With its meaning for the shell, inside quotes or in an expansion. -/
  | active (a : α)
  deriving DecidableEq

def Reading.symbol : Reading α → α
  | bare a | literal a | active a => a

def nextDouble (key : α → Char) (a : α) : List (Reading α) × Mode α :=
  if key a = '"' then ([], .bare .word)
  else if key a = '\\' then ([], .doubleEscaped a)
  else if key a = '$' then ([.active a], .doubleDollar)
  else if key a = backquote then ([.active a], .unread)
  else ([.literal a], .double)

def Mode.next (key : α → Char) : Mode α → α → List (Reading α) × Mode α
  | bare p, a =>
    if key a = '\\' then ([], escaped p)
    else if key a = quote then ([], if p = .dollar then dollarSingle else single)
    else if key a = '"' then ([], double)
    else if key a = '#' ∧ p.startsWord then ([], comment)
    else if p.leaves (key a) then ([.active a], unread)
    else if key a = '{' ∧ p = .dollar then ([.active a], parameter false)
    else ([.bare a], bare (p.next (key a)))
  -- a backslash before a newline continues the line
  | escaped p, a => if key a = '\n' then ([], bare p) else ([.literal a], bare .word)
  | comment, a => if key a = '\n' then ([.bare a], bare .start) else ([], comment)
  | single, a => if key a = quote then ([], bare .word) else ([.literal a], single)
  -- the escapes are not decoded
  | dollarSingle, a =>
    if key a = quote then ([], bare .word)
    else if key a = '\\' then ([.active a], dollarEscaped)
    else ([.literal a], dollarSingle)
  | dollarEscaped, a => ([.active a], dollarSingle)
  | double, a => nextDouble key a
  | doubleDollar, a =>
    if key a = '$' then ([.active a], double)
    else if key a = '{' then ([.active a], parameter true)
    else if ['(', '[', '\\'].contains (key a) then ([.active a], unread)
    else nextDouble key a
  -- inside double quotes the backslash only escapes what is special there
  | doubleEscaped b, a =>
    if key a = '\n' then ([], double)
    else if key a = '$' || key a = backquote || key a = '"' || key a = '\\' then
      ([.literal a], double)
    else ([.literal b, .literal a], double)
  | parameter inDouble, a =>
    if key a = '}' then ([.active a], if inDouble then double else bare .word)
    else if (key a).isAlphanum || key a = '_' then ([.active a], parameter inDouble)
    else ([.active a], unread)
  | unread, a => ([.active a], unread)

def read (key : α → Char) : Mode α → List α → List (Reading α) × Mode α
  | m, [] => ([], m)
  | m, a :: s =>
    ((m.next key a).1 ++ (read key (m.next key a).2 s).1, (read key (m.next key a).2 s).2)

/-- A quoted value that starts here is read as quoted. -/
def Mode.outside : Mode α → Bool
  | bare p => p ≠ .dollar
  | _ => false

/-- Read a template; its holes must stand outside any quoting. -/
def readTemplate (key : α → Char) (value : ι → List α) :
    Mode α → List (α ⊕ ι) → Option (List (Reading α) × Mode α)
  | m, [] => some ([], m)
  | m, .inl a :: s =>
    (readTemplate key value (m.next key a).2 s).map fun r => ((m.next key a).1 ++ r.1, r.2)
  | m, .inr i :: s =>
    if m.outside then
      (readTemplate key value (.bare .word) s).map fun r => ((value i).map .literal ++ r.1, r.2)
    else none

def escapeQuotes (key : α → Char) (own : Char → α) (value : List α) : List α :=
  value.flatMap fun a => if key a = quote then [own quote, own '\\', a, own quote] else [a]

/-- Wrap a value in single quotes; `own` makes the symbols that are added. -/
def quoted (key : α → Char) (own : Char → α) (value : List α) : List α :=
  own quote :: escapeQuotes key own value ++ [own quote]

/-- All symbols show a character. -/
def shown (key : α → Char) (a : α) : Option Char := some (key a)

variable {key : α → Char} {value : ι → List α} {m : Mode α} {s : List (α ⊕ ι)}
  {r : List (Reading α) × Mode α} {x : Reading α}

@[simp] theorem escapeQuotes_cons (own : Char → α) (a s) : escapeQuotes key own (a :: s) =
      (if key a = quote then [own quote, own '\\', a, own quote] else [a]) ++
        escapeQuotes key own s := rfl

theorem map_quoted {β : Type*} {own : Char → α} {key' : β → Char} {own' : Char → β} (g : α → β)
    (hk : ∀ a, key' (g a) = key a) (hown : ∀ c, g (own c) = own' c) (value) :
    (quoted key own value).map g = quoted key' own' (value.map g) := by
  simp only [quoted, escapeQuotes, map_append, map_cons, map_flatMap, flatMap_map, hk, hown]
  congr 3
  funext a
  split <;> simp [hown]

/-! ## Reading quoted values -/

section

variable {key : α → Char}

theorem read_append (m s t) : read key m (s ++ t) =
      ((read key m s).1 ++ (read key (read key m s).2 t).1, (read key (read key m s).2 t).2) := by
  induction s generalizing m with
  | nil => rfl
  | cons _ _ ih => simp only [cons_append, read, ih, append_assoc]

variable {own : Char → α} (hown : ∀ c, key (own c) = c)

include hown

/-- Inside the single quotes every character of the value is literal. -/
theorem read_escapeQuotes (value : List α) :
    read key .single (escapeQuotes key own value) = (value.map .literal, .single) := by
  induction value with
  | nil => rfl
  | cons a _ ih =>
    by_cases ha : key a = quote
    · have hn : quote ≠ '\n' := by decide
      have hbackslash : quote ≠ '\\' := by decide
      simp [ha, read, Mode.next, hown, ih, hn, hbackslash]
    · simp [ha, read, Mode.next, ih]

theorem read_quoted (hm : m.outside = true) (value) :
    read key m (quoted key own value) = (value.map .literal, .bare .word) := by
  obtain ⟨p, rfl, hp⟩ : ∃ p, m = .bare p ∧ p ≠ .dollar := by
    cases m with
    | bare p => exact ⟨p, rfl, of_decide_eq_true hm⟩
    | _ => cases hm
  have ho : Mode.next key (.bare p) (own quote) = ([], .single) := by
    have hbackslash : quote ≠ '\\' := by decide
    simp [Mode.next, hown, hbackslash, hp]
  rw [quoted, cons_append, read, ho, read_append, read_escapeQuotes hown]
  simp [read, Mode.next, hown]

end

/-- A template that is filled with texts that read as its values reads as the
template. -/
theorem read_fill {text : ι → List α} (hr : readTemplate key value m s = some r)
    (ht : ∀ i, .inr i ∈ s → ∀ m : Mode α, m.outside = true →
      read key m (text i) = ((value i).map .literal, .bare .word)) :
    read key m (fill text s) = r := by
  fun_induction readTemplate key value m s generalizing r with
  | case1 => exact Option.some.inj hr
  | case2 _ _ _ ih =>
    obtain ⟨r', hr', rfl⟩ := Option.map_eq_some_iff.mp hr
    rw [fill_inl, read, ih hr' fun i hi => ht i (mem_cons_of_mem _ hi)]
  | case3 m i _ hm ih =>
    obtain ⟨r', hr', rfl⟩ := Option.map_eq_some_iff.mp hr
    rw [fill_inr, read_append, ht i mem_cons_self m hm, ih hr' fun i hi =>
      ht i (mem_cons_of_mem _ hi)]
  | case4 => cases hr

theorem mem_next {a} (h : x ∈ (m.next key a).1) : x = .literal x.symbol ∨ x.symbol = a := by
  revert h
  cases m <;> simp only [Mode.next, nextDouble]
  all_goals
    repeat' split
    all_goals simp +contextual [Reading.symbol, or_imp]

/-- What is not read literally is the text of the template. -/
theorem mem_readTemplate (hr : readTemplate key value m s = some r) (hx : x ∈ r.1) :
    x = .literal x.symbol ∨ .inl x.symbol ∈ s := by
  fun_induction readTemplate key value m s generalizing r with
  | case1 =>
    obtain rfl := Option.some.inj hr
    cases hx
  | case2 _ _ _ ih =>
    obtain ⟨r', hr', rfl⟩ := Option.map_eq_some_iff.mp hr
    obtain hx | hx := mem_append.mp hx
    · obtain h | h := mem_next hx
      · exact .inl h
      · exact .inr (h ▸ mem_cons_self)
    · exact (ih hr' hx).imp_right (mem_cons_of_mem _)
  | case3 _ _ _ _ ih =>
    obtain ⟨r', hr', rfl⟩ := Option.map_eq_some_iff.mp hr
    obtain hx | hx := mem_append.mp hx
    · obtain ⟨a, -, rfl⟩ := mem_map.mp hx
      exact .inl rfl
    · exact (ih hr' hx).imp_right (mem_cons_of_mem _)
  | case4 => cases hr

/-! ## Counting what is read -/

section

variable (key : α → Char) (marked : α → Bool)

/-- The backslash that the reader holds back. -/
def Mode.held : Mode α → List α
  | doubleEscaped b => [b]
  | _ => []

theorem next_sublist (m : Mode α) (a : α) :
    (m.next key a).1.map Reading.symbol ++ (m.next key a).2.held <+ m.held ++ [a] := by
  cases m <;> simp only [Mode.next, nextDouble]
  all_goals
    repeat' split
    all_goals simp [Mode.held, Reading.symbol]

/-- Every character is read once at most, in order. -/
theorem read_sublist (m s) : (read key m s).1.map Reading.symbol <+ m.held ++ s := by
  induction s generalizing m with
  | nil => simp [read]
  | cons a s ih =>
    rw [read, map_append]
    calc (m.next key a).1.map Reading.symbol ++ (read key (m.next key a).2 s).1.map Reading.symbol
      _ <+ (m.next key a).1.map Reading.symbol ++ ((m.next key a).2.held ++ s) :=
        (ih _).append_left _
      _ = ((m.next key a).1.map Reading.symbol ++ (m.next key a).2.held) ++ s :=
        (append_assoc _ _ _).symm
      _ <+ (m.held ++ [a]) ++ s := (next_sublist key m a).append_right s
      _ = m.held ++ a :: s := by rw [append_assoc, singleton_append]

theorem countP_read_le (s) :
    (read key (.bare .start) s).1.countP (fun x => marked x.symbol) ≤ s.countP marked := by
  have hr := (read_sublist key (.bare .start) s).countP_le (p := marked)
  rwa [countP_map] at hr

variable {key marked} {value text : ι → List α} {m : Mode α} {s : List (α ⊕ ι)}
  {r : List (Reading α) × Mode α}

/-- The characters of the values are in the reading of a template. -/
theorem sum_countP_le (hr : readTemplate key value m s = some r) :
    (s.map fun x => (Sum.elim (fun _ => []) value x).countP marked).sum ≤
      r.1.countP fun x => marked x.symbol := by
  fun_induction readTemplate key value m s generalizing r with
  | case1 => simp
  | case2 _ _ _ ih =>
    obtain ⟨r', hr', rfl⟩ := Option.map_eq_some_iff.mp hr
    have hre := ih hr'
    rw [map_cons, sum_cons, countP_append, Sum.elim_inl, countP_nil]
    omega
  | case3 _ i _ _ ih =>
    obtain ⟨r', hr', rfl⟩ := Option.map_eq_some_iff.mp hr
    have hre := ih hr'
    have hv : ((value i).map Reading.literal).countP (fun x => marked x.symbol) =
        (value i).countP marked := by
      rw [countP_map]
      rfl
    rw [map_cons, sum_cons, countP_append, Sum.elim_inr]
    omega
  | case4 => cases hr

/-- A filled template does not read as its template if the text of some hole has
lost marked characters and the text of no hole has gained some. -/
theorem read_fill_ne (hr : readTemplate key value (.bare .start) s = some r)
    (hs : ∀ a, .inl a ∈ s → marked a = false)
    (ht : ∀ i, .inr i ∈ s → (text i).countP marked ≤ (value i).countP marked)
    (hl : ∃ i, .inr i ∈ s ∧ (text i).countP marked < (value i).countP marked) :
    read key (.bare .start) (fill text s) ≠ r := by
  rintro rfl
  have hre := countP_read_le key marked (fill text s)
  have hv : _ ≤ (read key (.bare .start) (fill text s)).1.countP fun x => marked x.symbol :=
    sum_countP_le hr
  have hf : (fill text s).countP marked =
      (s.map fun x => (Sum.elim (fun a => [a]) text x).countP marked).sum := by
    rw [fill, countP_flatMap]
    rfl
  have hlt : (s.map fun x => (Sum.elim (fun a => [a]) text x).countP marked).sum <
      (s.map fun x => (Sum.elim (fun _ => []) value x).countP marked).sum := by
    refine sum_lt_sum _ _ ?_ ?_
    · rintro (a | i) hx
      · simp [hs a hx]
      · exact ht i hx
    · obtain ⟨i, hi, hlt⟩ := hl
      exact ⟨.inr i, hi, hlt⟩
  omega

end

/-! ## Patterns in quoted values -/

theorem occurs_iff_isInfix {pat s} : Occurs (shown key) pat s ↔ pat <:+: s.map key := by
  rw [Occurs, show shown key = some ∘ key from rfl, ← map_map]
  constructor
  · intro h
    obtain ⟨l, _, heq⟩ := infix_map_iff.mp h
    rwa [map_injective_iff.mpr (fun _ _ => Option.some.inj) heq]
  · exact fun h => h.map some

section

variable {key : α → Char} {own : Char → α}

theorem mem_quoted {value a} (h : a ∈ quoted key own value) :
    a = own quote ∨ a = own '\\' ∨ a ∈ value := by
  simp only [quoted, escapeQuotes, cons_append, mem_cons, mem_append, mem_flatMap, not_mem_nil,
    or_false] at h
  obtain h | ⟨b, hb, h⟩ | h := h
  · exact .inl h
  · split at h <;> simp only [mem_cons, not_mem_nil, or_false] at h
    · obtain h | h | rfl | h := h
      · exact .inl h
      · exact .inr (.inl h)
      · exact .inr (.inr hb)
      · exact .inl h
    · exact .inr (.inr (h ▸ hb))
  · exact .inl h

theorem countP_quoted {marked : α → Bool} (hown : ∀ c, marked (own c) = false) (value) :
    (quoted key own value).countP marked = value.countP marked := by
  have hi : (escapeQuotes key own value).countP marked = value.countP marked := by
    induction value with
    | nil => rfl
    | cons _ _ ih =>
      rw [escapeQuotes_cons, countP_append, ih, Nat.add_comm]
      split <;> simp [countP_cons, hown]
  simp [quoted, hown, hi]

variable (hown : ∀ c, key (own c) = c)

include hown

theorem delimited_quoted {pats} (hquote : quote ∉ pats) (value : List α) :
    Delimited (shown key) pats (quoted key own value) := by
  refine ⟨own quote, _, own quote, rfl, ?_, ?_⟩ <;> simpa [shown, hown] using hquote

variable {pat : List Char} (hquote : quote ∉ pat)

include hquote

/-- A pattern without quotes at the head of a quoted value is at the head of the
value. -/
theorem prefix_escapeQuotes_iff (value : List α) :
    pat <+: (escapeQuotes key own value).map key ↔ pat <+: value.map key := by
  induction value generalizing pat with
  | nil => rfl
  | cons a _ ih =>
    cases pat with
    | nil => simp
    | cons =>
      rw [mem_cons, not_or] at hquote
      by_cases ha : key a = quote
      · simp [ha, hown, Ne.symm hquote.1]
      · simp [ha, ih hquote.2]

variable (hpat : pat ≠ []) (hbackslash : '\\' ∉ pat)

include hpat hbackslash

theorem infix_quoted_iff (value) :
    pat <:+: (quoted key own value).map key ↔ pat <:+: value.map key := by
  have hco : ∀ {c : Char} {s : List Char}, c ∉ pat → (pat <:+: c :: s ↔ pat <:+: s) := by
    intro c s hc
    rw [infix_cons_iff, or_iff_right]
    intro h
    have hn := (prefix_append_cons_iff (s := []) hc).mp h
    exact hpat (prefix_nil.mp hn)
  rw [quoted, cons_append, map_cons, hown, hco hquote]
  induction value with
  | nil => simp [escapeQuotes, hown, hco hquote]
  | cons a value ih =>
    by_cases ha : key a = quote
    · simp only [escapeQuotes_cons, ha, if_pos, cons_append, nil_append, map_cons, hown,
        hco hquote, hco hbackslash, ih]
    · have hp := prefix_escapeQuotes_iff hown hquote (a :: value)
      simp only [escapeQuotes_cons, if_neg ha, cons_append, map_cons, map_append, hown] at hp ih ⊢
      rw [infix_cons_iff, infix_cons_iff, ← hp, ← cons_append, prefix_append_cons_iff hquote]
      exact or_congr_right ih

theorem occurs_quoted (value) : Occurs (shown key) pat (quoted key own value) ↔
      Occurs (shown key) pat value := by
  rw [occurs_iff_isInfix, occurs_iff_isInfix, infix_quoted_iff hown hquote hpat hbackslash]

end

/-! ## Templates filled with quoted values -/

/-- Symbols that know which value they come from, and quoting that comes from none. -/
structure Traced (key : α → Char) (own : Char → α) (value : ι → List α) (mark : ι → α → Bool) :
    Prop where
  key_own : ∀ c, key (own c) = c
  mark_own : ∀ i c, mark i (own c) = false
  mark_value : ∀ i, ∀ a ∈ value i, mark i a = true
  mark_other : ∀ i k, i ≠ k → ∀ a ∈ value k, mark i a = false

/-- Placeholders that are replaced in an order, each once; quoting is not part of
their names. -/
structure Placeholders (name : ι → List Char) (order : List ι) : Prop where
  nodup : order.Nodup
  ne_nil : ∀ i ∈ order, name i ≠ []
  quote_not_mem : ∀ i ∈ order, quote ∉ name i
  backslash_not_mem : ∀ i ∈ order, '\\' ∉ name i

section

variable [DecidableEq ι] {key : α → Char} {own : Char → α} {value : ι → List α}
  {mark : ι → α → Bool} {name : ι → List Char} {order : List ι} {template : List α}
  {r : List (Reading α) × Mode α}

variable (ht : Traced key own value mark)

include ht

omit [DecidableEq ι] in
theorem Traced.countP_quoted_of_ne {i k} (h : i ≠ k) :
    (quoted key own (value k)).countP (mark i) = 0 := by
  rw [countP_quoted (ht.mark_own i), countP_eq_zero]
  exact fun a ha => by simp [ht.mark_other i k h a ha]

omit [DecidableEq ι] in
theorem Placeholders.occurs_quoted (hn : Placeholders name order) {j} (hj : j ∈ order) (v) :
    Occurs (shown key) (name j) (quoted key own v) ↔
      Occurs (shown key) (name j) v :=
  Text.occurs_quoted ht.key_own (hn.quote_not_mem j hj) (hn.ne_nil j hj)
    (hn.backslash_not_mem j hj) v

/-- The first value that brings in a placeholder still to be replaced loses
characters. -/
theorem not_occurs_of_read {before i after text} {s : List (α ⊕ ι)}
    (hn : Placeholders name (before ++ i :: after)) (hs : ∀ a, .inl a ∈ s → mark i a = false)
    (hor : ∀ k, .inr k ∈ s → k ∈ before ++ i :: after)
    (hr : readTemplate key value (.bare .start) s = some r)
    (hb : ∀ k ∈ before, .inr k ∈ s → textAfter (shown key) name
      (fun i => quoted key own (value i)) (before ++ i :: after) text k = quoted key own (value k))
    (hre : read key (.bare .start) (fill (textAfter (shown key) name
      (fun i => quoted key own (value i)) (before ++ i :: after) text) s) = r)
    (hi : .inr i ∈ s) : ∀ j ∈ after, ¬ Occurs (shown key) (name j) (value i) := by
  intro j hj ho
  have hm : ∀ {k}, k ∈ after → k ∈ before ++ i :: after :=
    fun hk => mem_append_right _ (mem_cons_of_mem _ hk)
  have hu : ∀ k ∈ after, (quoted key own (value k)).countP (mark i) = 0 := by
    intro k hk
    refine ht.countP_quoted_of_ne ?_
    rintro rfl
    exact (nodup_cons.mp (nodup_append.mp hn.nodup).2.1).1 hk
  refine @read_fill_ne _ _ _ (mark i) _ _ _ _ hr hs ?_ ⟨i, hi, ?_⟩ hre
  · intro k hm
    rw [← countP_quoted (ht.mark_own i) (value k)]
    obtain hk | hk := mem_append.mp (hor k hm)
    · rw [hb k hk hm]
    · obtain ⟨mid, rest, heq⟩ := append_of_mem hk
      have hsu : rest ⊆ after := by
        cases mid with
        | nil => exact (cons.inj heq).2 ▸ Subset.refl _
        | cons => exact (cons.inj heq).2 ▸ fun x hx => by simp [hx]
      have hno := hn.nodup
      rw [heq, ← append_assoc] at hno ⊢
      rw [textAfter_of_append hno]
      exact countP_replaceEach_le (fun j hj => hu j (hsu hj)) _
  · rw [textAfter_of_append hn.nodup, ← countP_quoted (ht.mark_own i) (value i)]
    refine countP_replaceEach_lt (fun k hk => hn.ne_nil k (hm hk)) hu ?_ ⟨j, hj, ?_⟩
    · intro k hk a ha hke
      replace hke : key a ∈ name k := by simpa [shown] using hke
      obtain rfl | rfl | ha := mem_quoted ha
      · rw [ht.key_own] at hke
        exact absurd hke (hn.quote_not_mem k (hm hk))
      · rw [ht.key_own] at hke
        exact absurd hke (hn.backslash_not_mem k (hm hk))
      · exact ht.mark_value i a ha
    · exact (hn.occurs_quoted ht (hm hj) (value i)).mpr ho

/-- A template that is filled with quoted values one after the other reads as the
template with literal values exactly if no value brings in a placeholder that is
replaced after its own. -/
theorem read_replaceEach_quoted_iff (hn : Placeholders name order)
    (hma : ∀ i, ∀ a ∈ template, mark i a = false)
    (hr : readTemplate key value (.bare .start) (holes (shown key) name order template) = some r) :
    read key (.bare .start) (replaceEach (shown key) name
        (fun i => quoted key own (value i)) order template) = r ↔
      order.Pairwise fun i j => .inr i ∈ holes (shown key) name order template →
        ¬ Occurs (shown key) (name j) (value i) := by
  have hquote : quote ∉ order.flatMap name := by simpa using hn.quote_not_mem
  have hf := replaceEach_fill (fun i => quoted key own (value i)) hn.nodup hn.ne_nil
    (fun i hi c hc => mem_flatMap.mpr ⟨i, hi, hc⟩)
    (fun i _ => delimited_quoted ht.key_own hquote (value i)) (s := template.map .inl)
    (by simp) (by simp)
  have ho : ∀ i, .inr i ∈ holes (shown key) name order template → i ∈ order := by
    intro i hi
    simpa using mem_replaceEach hi
  rw [fill_map_inl] at hf
  rw [hf]
  have hl : ∀ {before i after}, order = before ++ i :: after →
      (∀ j ∈ after, ¬ Occurs (shown key) (name j) (value i)) →
      textAfter (shown key) name (fun i => quoted key own (value i)) order
        (fun i => quoted key own (value i)) i = quoted key own (value i) := by
    rintro before i after rfl h
    rw [textAfter_of_append hn.nodup, replaceEach_eq_self]
    intro j hj
    rw [hn.occurs_quoted ht (mem_append_right _ (mem_cons_of_mem _ hj))]
    exact h j hj
  constructor
  · intro hre
    -- the placeholders before `after` keep their quoted values
    suffices h : ∀ after before, order = before ++ after →
        (∀ k ∈ before, .inr k ∈ holes (shown key) name order template →
          textAfter (shown key) name (fun i => quoted key own (value i)) order
            (fun i => quoted key own (value i)) k = quoted key own (value k)) →
        after.Pairwise _ from h order [] rfl (by simp)
    intro after
    induction after with
    | nil => simp
    | cons i after ih =>
      intro before heq hb
      have hi : .inr i ∈ holes (shown key) name order template →
          ∀ j ∈ after, ¬ Occurs (shown key) (name j) (value i) := by
        subst heq
        refine not_occurs_of_read ht hn (fun a ha => ?_) ho hr hb hre
        exact hma i a (by simpa using mem_replaceEach ha)
      refine pairwise_cons.mpr ⟨fun j hj h => hi h j hj, ih (before ++ [i]) (by simp [heq]) ?_⟩
      intro k hk hme
      obtain hk | hk := mem_append.mp hk
      · exact hb k hk hme
      · obtain rfl := mem_singleton.mp hk
        exact hl heq (hi hme)
  · intro hfr
    refine read_fill hr fun i hi m hm => ?_
    obtain ⟨_, _, heq⟩ := append_of_mem (ho i hi)
    rw [hl heq, read_quoted ht.key_own hm]
    intro j hj
    refine pairwise_iff_forall_sublist.mp hfr ?_ hi
    rw [heq]
    exact ((singleton_sublist.mpr hj).cons_cons i).trans (sublist_append_right _ _)

end

end Uptrakit.Text
