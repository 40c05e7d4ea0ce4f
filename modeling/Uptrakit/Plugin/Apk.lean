import Mathlib.Data.List.Chain
import Mathlib.Logic.Function.Basic
import Mathlib.Tactic.MkIffOfInductiveProp
import Uptrakit.Text.Basic

/-!
# Package lines of APK

The APK plugin (`crates/plugins/package-managers/apk/src/plugin.rs`) reads the lines that `apk`
prints, which begin with `name-version`, and takes what stands before the first hyphen with a
digit after it for the name.  It skips lines that begin with `fetch`.  So a package is read
correctly exactly when its name has no hyphen with a digit after it and does not begin with `fetch`
(`parsed_iff`).
-/

namespace Uptrakit.Plugin.Apk

open List Text

structure PackageIdentifierRules where
  minLen : Nat
  maxLen : Nat
  firstCharValid : Char → Bool
  charValid : Char → Bool
  rejectDoubleDot : Bool

def PackageIdentifierRules.validate (rules : PackageIdentifierRules) (value : String) :
    Except String Unit :=
  match value.toList with
  | [] => .error "package_identifier must not be empty"
  | first :: _ =>
    if len value < rules.minLen then
      .error s!"package_identifier must be at least {rules.minLen} characters long"
    else if len value > rules.maxLen then
      .error s!"package_identifier must not exceed {rules.maxLen} characters"
    else if !rules.firstCharValid first then
      .error s!"package_identifier starts with an invalid character: '{first}'"
    else
      match value.toList.find? (!rules.charValid ·) with
      | some ch => .error s!"package_identifier contains invalid character: '{ch}'"
      | none =>
        if rules.rejectDoubleDot && "..".toList <:+: value.toList then
          .error "package_identifier must not contain '..'"
        else .ok ()

def isNameStart (c : Char) : Bool := c.isLower || c.isDigit

def identifierRules : PackageIdentifierRules where
  minLen := 2
  maxLen := 100
  firstCharValid := isNameStart
  charValid c := isNameStart c || ['.', '_', '+', '-'].contains c
  rejectDoubleDot := true

def validateIdentifier (value : String) : Except String Unit := identifierRules.validate value

def trimmed (line : List Char) : List Char :=
  (line.dropWhile isWhitespace).rdropWhile isWhitespace

def splitNameVersion : List Char → Option (List Char × List Char)
  | [] => none
  | c :: rest =>
    if c = '-' ∧ rest.head?.any Char.isDigit then some ([], rest)
    else (splitNameVersion rest).map fun (name, version) => (c :: name, version)

def installedMark : List Char := "[installed]".toList

def fetchLine : List Char := "fetch".toList

def parseApkListLine (line : List Char) : Option (List Char × List Char) := do
  let line := trimmed line
  if line = [] ∨ ¬ installedMark <:+: line then none
  let (name, version) ← splitNameVersion (line.takeWhile (!isWhitespace ·))
  if name = [] ∨ version = [] then none
  return (name, version)

def parseApkVersionLine (line : List Char) : Option (List Char × List Char) :=
  let line := trimmed line
  if line = [] ∨ fetchLine <+: line then none
  else
    match line.splitOn ' ' with
    | nameVer :: _ :: part :: parts =>
      let latest := trimmed ([' '].intercalate (part :: parts))
      if latest = [] then none else some (trimmed nameVer, latest)
    | _ => none

def collect (entry : List Char → Option (List Char × List Char)) (output : List Char)
    (pkgNames : List (List Char)) : List Char → Option (List Char) :=
  (output.splitOn '\n').foldl (fun result line =>
      match entry line with
      | some (name, version) =>
        if name ∈ pkgNames then Function.update result name (some version) else result
      | none => result)
    fun _ => none

def parseApkInfoOutput : List Char → List (List Char) → List Char → Option (List Char) :=
  collect fun line => splitNameVersion (trimmed line)

def parseApkVersionOutput : List Char → List (List Char) → List Char → Option (List Char) :=
  collect fun line => do
    let (nameVer, latest) ← parseApkVersionLine line
    let (name, _) ← splitNameVersion nameVer
    return (name, latest)

/-! ## Lines of packages -/

/-- A text without blanks. -/
@[mk_iff]
structure IsWord (word : List Char) : Prop where
  ne_nil : word ≠ []
  dense : ∀ c ∈ word, isWhitespace c = false

instance : DecidablePred IsWord := fun word =>
  decidable_of_iff (word ≠ [] ∧ word.all (!isWhitespace ·)) (by simp [isWord_iff])

/-- No hyphen of the name has a digit after it. -/
def Separable (name : List Char) : Prop := name.IsChain fun a b => a = '-' → b.isDigit = false

variable {name version line word tail last : List Char}

theorem splitNameVersion_of_separable (h : Separable name)
    (hv : version.head?.any Char.isDigit) :
    splitNameVersion (name ++ '-' :: version) = some (name, version) := by
  induction name with
  | nil => simp [splitNameVersion, hv]
  | cons c name ih =>
    rw [cons_append, splitNameVersion, ih h.tail, if_neg]
    · rfl
    · rintro ⟨rfl, hdigit⟩
      cases name with
      | nil => simp at hdigit
      | cons d => simp_all [Separable]

/-- The name that is read ends at the first hyphen with a digit after it. -/
theorem separable_of_splitNameVersion
    (h : splitNameVersion (name ++ '-' :: version) = some (name, tail)) : Separable name := by
  induction name with
  | nil => exact .nil
  | cons c name ih =>
    rw [cons_append, splitNameVersion] at h
    split_ifs at h with hcu
    · simp at h
    · obtain ⟨⟨front, back⟩, hs, heq⟩ := Option.map_eq_some_iff.1 h
      obtain ⟨rfl, rfl⟩ : front = name ∧ back = tail := by simpa using heq
      have hname := ih hs
      cases front with
      | nil => exact .singleton c
      | cons d front =>
        refine .cons_cons (fun hc => ?_) hname
        simpa [hc] using hcu

theorem IsWord.notMem (h : IsWord word) {c} (hc : isWhitespace c = true) : c ∉ word := by
  intro hmem
  rw [h.dense c hmem] at hc
  cases hc

/-- A line that begins and ends with a word. -/
theorem trimmed_eq_self (h : IsWord word) (h' : IsWord last) (hp : word <+: line)
    (hs : last <:+ line) : trimmed line = line := by
  have hf : line.dropWhile isWhitespace = line := by
    obtain ⟨tail, rfl⟩ := hp
    obtain ⟨c, word, rfl⟩ := exists_cons_of_ne_nil h.ne_nil
    simp [h.dense c]
  obtain ⟨front, rfl⟩ := hs
  rw [trimmed, hf, rdropWhile_eq_self_iff]
  intro hne
  rw [getLast_append_of_ne_nil _ h'.ne_nil, h'.dense _ (getLast_mem _)]
  exact Bool.false_ne_true

theorem IsWord.trimmed (h : IsWord word) : Apk.trimmed word = word :=
  trimmed_eq_self h h prefix_rfl suffix_rfl

theorem collect_eq_some_iff {entry} {pkgNames} (hl : '\n' ∉ line) (hname : name ∈ pkgNames) :
    collect entry line pkgNames name = some version ↔ entry line = some (name, version) := by
  rw [collect, splitOn_eq_singleton hl, foldl_cons, foldl_nil]
  rcases entry line with _ | ⟨read, _⟩
  · simp
  · by_cases hr : read = name
    · simp [hr, hname]
    · by_cases hmem : read ∈ pkgNames <;> simp [hr, Ne.symm hr, hmem]

theorem isWord_of_validateIdentifier (h : validateIdentifier (.ofList name) = .ok ()) :
    IsWord name := by
  revert h
  unfold validateIdentifier
  fun_cases PackageIdentifierRules.validate identifierRules (.ofList name) with
  | case7 first rest hco _ _ _ hf =>
    intro _
    rw [String.toList_ofList] at hco hf
    refine ⟨by simp [hco], ?_⟩
    intro c hc
    have hv := find?_eq_none.1 hf c hc
    have hl : c.isLower = (decide (97 ≤ c.val) && decide (c.val ≤ 122)) := rfl
    simp [identifierRules, isNameStart, isWhitespace, hl, Char.isDigit,
      UInt32.le_iff_toNat_le, ← Char.toNat_inj] at hv ⊢
    omega
  | _ => rintro ⟨⟩

/-- What stands at the beginning of a line. -/
theorem isWord_nameVersion (h : IsWord name) (h' : IsWord version) :
    IsWord (name ++ '-' :: version) := by
  refine ⟨by simp, ?_⟩
  simp only [mem_append, mem_cons]
  rintro c (hc | rfl | hc)
  · exact h.dense c hc
  · rfl
  · exact h'.dense c hc

section Lines

variable {installed latest sign : List Char} {pkgNames : List (List Char)} (hname : IsWord name)
  (hmem : name ∈ pkgNames) (hinstalled : IsWord installed)
  (hdigit : installed.head?.any Char.isDigit)

include hname hmem hinstalled hdigit

theorem parseApkInfoOutput_eq_some_iff :
    parseApkInfoOutput (name ++ '-' :: installed) pkgNames name = some installed ↔
      Separable name := by
  have hnv := isWord_nameVersion hname hinstalled
  rw [parseApkInfoOutput, collect_eq_some_iff (hnv.notMem rfl) hmem, hnv.trimmed]
  exact ⟨separable_of_splitNameVersion, fun h => splitNameVersion_of_separable h hdigit⟩

theorem parseApkVersionOutput_eq_some_iff (hl : IsWord latest) (hsi : IsWord sign)
    (h : Separable name) :
    parseApkVersionOutput (name ++ '-' :: installed ++ ' ' :: (sign ++ ' ' :: latest)) pkgNames
      name = some latest ↔ ¬ fetchLine <+: name := by
  have hnv := isWord_nameVersion hname hinstalled
  have hs := splitNameVersion_of_separable h hdigit
  generalize hn : name ++ '-' :: installed = nameVersion at hnv hs
  have hne : '\n' ∉ nameVersion ++ ' ' :: (sign ++ ' ' :: latest) := by
    have := hnv.notMem (c := '\n') rfl
    have := hsi.notMem (c := '\n') rfl
    have := hl.notMem (c := '\n') rfl
    simp_all
  have ht := trimmed_eq_self hnv hl (prefix_append _ (' ' :: (sign ++ ' ' :: latest)))
    ⟨nameVersion ++ ' ' :: sign ++ [' '], by simp⟩
  have hp : (nameVersion ++ ' ' :: (sign ++ ' ' :: latest)).splitOn ' ' =
      [nameVersion, sign, latest] := by
    rw [splitOn_append_cons_self, splitOn_append_cons_self,
      splitOn_eq_singleton (hnv.notMem rfl), splitOn_eq_singleton (hsi.notMem rfl),
      splitOn_eq_singleton (hl.notMem rfl)]
    rfl
  have hli : fetchLine <+: nameVersion ++ ' ' :: (sign ++ ' ' :: latest) ↔
      fetchLine <+: name := by
    rw [prefix_append_cons_iff (by decide), ← hn, prefix_append_cons_iff (by decide)]
  rw [parseApkVersionOutput, collect_eq_some_iff hne hmem]
  by_cases hf : fetchLine <+: name <;>
    simp [parseApkVersionLine, ht, hp, hli, hf, hl.trimmed, hl.ne_nil, hnv.trimmed, hs]

omit hmem in
theorem parseApkListLine_eq_some (rest : List Char) (h : Separable name) :
    parseApkListLine (name ++ '-' :: installed ++ ' ' :: rest ++ installedMark) =
      some (name, installed) := by
  have hnv := isWord_nameVersion hname hinstalled
  have hs := splitNameVersion_of_separable h hdigit
  generalize name ++ '-' :: installed = nameVersion at hnv hs
  have hb : IsWord installedMark := by decide
  have hf : (nameVersion ++ ' ' :: rest ++ installedMark).takeWhile (!isWhitespace ·) =
      nameVersion := by
    rw [append_assoc, takeWhile_append_of_pos (by simpa using hnv.dense), cons_append,
      takeWhile_cons_of_neg (by decide), append_nil]
  have hm := suffix_append (nameVersion ++ ' ' :: rest) installedMark
  rw [parseApkListLine, trimmed_eq_self hnv hb (by simp) hm, hf, hs]
  simpa [hname.ne_nil, hinstalled.ne_nil] using hm.isInfix

end Lines

/-- Every package is read from the lines of all three commands, with versions without blanks of
which the installed one begins with a digit, exactly when no hyphen of its name has a digit after
it and the name does not begin with `fetch`. -/
theorem parsed_iff (name installed latest sign rest : List Char) (pkgNames : List (List Char))
    (hname : validateIdentifier (.ofList name) = .ok ()) (hmem : name ∈ pkgNames)
    (hinstalled : IsWord installed) (hdigit : installed.head?.any Char.isDigit)
    (hl : IsWord latest) (hsi : IsWord sign) :
    let nameVersion := name ++ '-' :: installed
    (parseApkInfoOutput nameVersion pkgNames name = some installed ∧
      parseApkVersionOutput (nameVersion ++ ' ' :: (sign ++ ' ' :: latest)) pkgNames name =
        some latest ∧
      parseApkListLine (nameVersion ++ ' ' :: rest ++ installedMark) = some (name, installed)) ↔
      Separable name ∧ ¬ fetchLine <+: name := by
  intro nameVersion
  have hw := isWord_of_validateIdentifier hname
  have hi := parseApkInfoOutput_eq_some_iff hw hmem hinstalled hdigit
  have hv := parseApkVersionOutput_eq_some_iff hw hmem hinstalled hdigit hl hsi
  constructor
  · rintro ⟨h, h', -⟩
    exact ⟨hi.1 h, (hv (hi.1 h)).1 h'⟩
  · rintro ⟨hs, hf⟩
    exact ⟨hi.2 hs, (hv hs).2 hf, parseApkListLine_eq_some hw hinstalled hdigit rest hs⟩

/-- A hyphen with a digit in the name, and a name that begins with `fetch`. -/
theorem misread :
    validateIdentifier "lib-2d" = .ok () ∧
      parseApkInfoOutput "lib-2d-1.0".toList ["lib-2d".toList] "lib-2d".toList = none ∧
      validateIdentifier "fetchmail" = .ok () ∧
      parseApkVersionOutput "fetchmail-6.4 < 6.5".toList ["fetchmail".toList]
        "fetchmail".toList = none :=
  ⟨rfl, by decide +kernel, rfl, by decide +kernel⟩

theorem parsed_iff_busybox :
    parseApkVersionOutput "busybox-1.36-r2 < 1.37-r0".toList ["busybox".toList]
      "busybox".toList = some "1.37-r0".toList :=
  ((parsed_iff "busybox".toList "1.36-r2".toList "1.37-r0".toList "<".toList [] ["busybox".toList]
    rfl (by decide) (by decide) (by decide) (by decide) (by decide)).2
    ⟨by simp [Separable], by decide⟩).2.1

end Uptrakit.Plugin.Apk
