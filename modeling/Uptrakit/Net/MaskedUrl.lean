import Uptrakit.Text.Basic

/-!
# Masked URLs

`mask_url_password` (`crates/shared/web-api-types/src/masked_url.rs`), through which a URL with
credentials is displayed and serialized.  The user info is taken to end at the first at sign, so
what follows the first at sign of a password is shown (`maskUrlPassword_userInfo`).
-/

namespace Uptrakit.Net

open List

/-- `str::find`, with the slices before and from the place that is found. -/
def find (pat : List Char) : List Char → Option (List Char × List Char)
  | [] => none
  | c :: s =>
    if pat.isPrefixOf (c :: s) then some ([], c :: s)
    else (find pat s).map fun found => (c :: found.1, found.2)

/-- Replace the password component of a URL with `***`. -/
def maskUrlPassword (url : String) : String :=
  match find [':', '/', '/'] url.toList with
  | none => url
  | some (scheme, rest) =>
    match find ['@'] (rest.drop 3) with
    | none => url
    | some (userInfo, rest) =>
      match find [':'] userInfo with
      | none => url
      | some (user, _) =>
        String.ofList (scheme ++ [':', '/', '/'] ++ user ++ [':']) ++ "***" ++ String.ofList rest

/-- The first character of the pattern does not stand before it. -/
theorem find_append {c s} (pat) (hs : c ∉ s) (t : List Char) :
    find (c :: pat) (s ++ c :: (pat ++ t)) = some (s, c :: (pat ++ t)) := by
  induction s with
  | nil => simp [find]
  | cons d s ih =>
    rw [mem_cons, not_or] at hs
    have hh : (c :: pat).isPrefixOf (d :: (s ++ c :: (pat ++ t))) = false := by
      simp [isPrefixOf, hs.1]
    rw [cons_append, find, hh, ih hs.2]
    rfl

/-- A password with what follows it, cut at the first at sign. -/
theorem exists_cut (password rest : List Char) : ∃ hidden host, '@' ∉ hidden ∧
    password ++ '@' :: rest = hidden ++ '@' :: host ∧
      password.dropWhile (· ≠ '@') ++ '@' :: rest = '@' :: host := by
  induction password with
  | nil => exact ⟨[], rest, not_mem_nil, rfl, rfl⟩
  | cons c password ih =>
    by_cases hc : c = '@'
    · exact ⟨[], password ++ '@' :: rest, not_mem_nil, by simp [hc], by simp [hc]⟩
    · obtain ⟨hidden, host, hh, hcu, hs⟩ := ih
      refine ⟨c :: hidden, host, by simp [Ne.symm hc, hh], by simp [hcu], ?_⟩
      rwa [dropWhile_cons_of_pos (by simpa using hc)]

section

variable {scheme user : String} (hscheme : ':' ∉ scheme.toList) (hcolon : ':' ∉ user.toList)
  (hat : '@' ∉ user.toList) (password rest : String)

include hscheme hcolon hat

/-- The user info ends at the first at sign. -/
theorem maskUrlPassword_userInfo :
    (maskUrlPassword (scheme ++ "://" ++ user ++ ":" ++ password ++ "@" ++ rest)).toList =
      scheme.toList ++ "://".toList ++ user.toList ++ ":***".toList ++
        (password.toList.dropWhile (· ≠ '@') ++ '@' :: rest.toList) := by
  obtain ⟨hidden, host, hh, hc, hs⟩ := exists_cut password.toList rest.toList
  have hur : (scheme ++ "://" ++ user ++ ":" ++ password ++ "@" ++ rest).toList =
      scheme.toList ++ ':' :: '/' :: '/' :: (user.toList ++ ':' :: hidden ++ '@' :: host) := by
    simp [hc]
  have hf := find_append ['/', '/'] hscheme
  have hi : find ['@'] (user.toList ++ ':' :: hidden ++ '@' :: host) = some _ :=
    find_append _ (by simp [hat, hh]) host
  have hu : find [':'] (user.toList ++ ':' :: hidden) = some _ := find_append _ hcolon hidden
  rw [maskUrlPassword, hur, hs]
  simp only [cons_append, nil_append] at hf
  simp only [hf, drop_succ_cons, drop_zero, hi, hu]
  simp

/-- Two passwords are masked alike exactly if they agree from their first at signs on. -/
theorem maskUrlPassword_eq_iff (other : String) :
    maskUrlPassword (scheme ++ "://" ++ user ++ ":" ++ password ++ "@" ++ rest) =
        maskUrlPassword (scheme ++ "://" ++ user ++ ":" ++ other ++ "@" ++ rest) ↔
      password.toList.dropWhile (· ≠ '@') = other.toList.dropWhile (· ≠ '@') := by
  rw [← String.toList_inj, maskUrlPassword_userInfo hscheme hcolon hat,
    maskUrlPassword_userInfo hscheme hcolon hat, append_cancel_left_eq, append_cancel_right_eq]

end

theorem maskUrlPassword_eq_of_agree :
    maskUrlPassword ("nats" ++ "://" ++ "u" ++ ":" ++ "a" ++ "@" ++ "host") =
      maskUrlPassword ("nats" ++ "://" ++ "u" ++ ":" ++ "b" ++ "@" ++ "host") :=
  (maskUrlPassword_eq_iff (by decide) (by decide) (by decide) "a" "host" "b").mpr (by decide)

/-- What follows an `@` in the password is shown. -/
theorem password_shown_past_at_sign :
    maskUrlPassword ("nats" ++ "://" ++ "u" ++ ":" ++ "p@ss" ++ "@" ++ "host") ≠
      maskUrlPassword ("nats" ++ "://" ++ "u" ++ ":" ++ "p@st" ++ "@" ++ "host") := by
  decide

end Uptrakit.Net
