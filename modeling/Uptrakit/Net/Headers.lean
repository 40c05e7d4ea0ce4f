import Uptrakit.Text.Basic

/-!
# HTTP headers

The header map of the `http` crate.  A map gives for each header name the values that a request
carries under it, in their order; two maps are equal if they do so for every name.  Names are
given as text and compared without regard to case, and a text that is no header name denotes
no header.
-/

namespace Uptrakit.Net

open List Function

def isNameChar (c : Char) : Bool :=
  c.isDigit || ('a' ≤ c && c ≤ 'z') || "!#$%&'*+-.^_`|~".toList.contains c

/-- `http::HeaderName`: a token in lower case. -/
structure HeaderName where
  text : String
  valid : (text ≠ "" ∧ Text.len text < 2 ^ 16) ∧ text.toList.all isNameChar = true
  deriving DecidableEq

def HeaderName.ofStr (s : String) : Option HeaderName :=
  if h : (Text.toAsciiLowercase s ≠ "" ∧ Text.len (Text.toAsciiLowercase s) < 2 ^ 16) ∧
      (Text.toAsciiLowercase s).toList.all isNameChar = true then
    some ⟨Text.toAsciiLowercase s, h⟩
  else none

/-- `http::HeaderValue`, as bytes. -/
abbrev HeaderValue := List UInt8

/-- `HeaderValue::to_str`: the value if it is visible ASCII. -/
def HeaderValue.toStr (value : HeaderValue) : Option String :=
  if value.all fun b => (32 ≤ b && b < 127) || b == 9 then
    some (String.ofList (value.map fun b => Char.ofNat b.toNat))
  else none

/-- `http::HeaderMap`. -/
@[ext] structure HeaderMap where
  values : HeaderName → List HeaderValue

namespace HeaderMap

/-- `HeaderMap::get`: the first value. -/
def get (headers : HeaderMap) (name : String) : Option HeaderValue := do
  let name ← HeaderName.ofStr name
  (headers.values name).head?

def getStr (headers : HeaderMap) (name : String) : Option String := do
  let value ← headers.get name
  HeaderValue.toStr value

/-- `HeaderMap::remove`: all values go. -/
def remove (headers : HeaderMap) (name : String) : HeaderMap :=
  match HeaderName.ofStr name with
  | some name => ⟨Function.update headers.values name []⟩
  | none => headers

/-- The texts denote the header name. -/
def Denotes (texts : List String) (name : HeaderName) : Prop :=
  ∃ text ∈ texts, HeaderName.ofStr text = some name

variable {headers : HeaderMap} {text : String} {name : HeaderName} {texts : List String}

theorem remove_values_of_ne (hne : HeaderName.ofStr text ≠ some name) :
    (headers.remove text).values name = headers.values name := by
  unfold remove
  split
  · rename_i removed hr
    refine update_of_ne ?_ _ _
    rintro rfl
    exact hne hr
  · rfl

theorem remove_values_self (hn : HeaderName.ofStr text = some name) :
    (headers.remove text).values name = [] := by
  simp only [remove, hn, update_self]

/-- Removing one header after another leaves the other ones. -/
theorem foldl_remove_values_of_not_denotes (hn : ¬Denotes texts name) (headers) :
    (texts.foldl remove headers).values name = headers.values name := by
  induction texts generalizing headers with
  | nil => rfl
  | cons text texts ih =>
    have hh : HeaderName.ofStr text ≠ some name := by
      intro h
      exact hn ⟨text, mem_cons_self, h⟩
    have ht : ¬Denotes texts name := by
      rintro ⟨other, hm, h⟩
      exact hn ⟨other, mem_cons_of_mem text hm, h⟩
    rw [foldl_cons, ih ht, remove_values_of_ne hh]

/-- Removing one header after another leaves none of them. -/
theorem foldl_remove_values_of_denotes (hn : Denotes texts name) (headers) :
    (texts.foldl remove headers).values name = [] := by
  induction texts generalizing headers with
  | nil =>
    obtain ⟨_, hm, -⟩ := hn
    exact absurd hm not_mem_nil
  | cons _ texts ih =>
    rw [foldl_cons]
    by_cases ht : Denotes texts name
    · exact ih ht _
    · obtain ⟨removed, hm, hr⟩ := hn
      obtain rfl | hm := mem_cons.mp hm
      · rw [foldl_remove_values_of_not_denotes ht, remove_values_self hr]
      · exact absurd ⟨removed, hm, hr⟩ ht

/-- Maps that agree on all other headers become equal. -/
theorem foldl_remove_eq {headers' : HeaderMap}
    (ha : ∀ name, ¬Denotes texts name → headers.values name = headers'.values name) :
    texts.foldl remove headers = texts.foldl remove headers' := by
  ext1
  funext name
  by_cases hn : Denotes texts name
  · rw [foldl_remove_values_of_denotes hn, foldl_remove_values_of_denotes hn]
  · rw [foldl_remove_values_of_not_denotes hn, foldl_remove_values_of_not_denotes hn, ha name hn]

end HeaderMap

end Uptrakit.Net
