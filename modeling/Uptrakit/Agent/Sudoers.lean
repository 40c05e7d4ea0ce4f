import Mathlib.Algebra.Order.BigOperators.Group.List
import Uptrakit.Text.Basic

/-!
# The sudoers file

`generate_sudoers_content` writes a comment and a rule for each command.  The path of the command
comes from the output of `command -v` on the host.  It is escaped in the rule and raw in the
comment, so a line break inside it ends the comment.
-/

namespace Uptrakit.Agent.Sudoers

open List Text

structure ResolvedSudoCommand where
  commandPath : String
  explanation : String
  needsSetenv : Bool

inductive SudoersContent
  | allCommands
  | specificCommands (entries : List ResolvedSudoCommand)

/-- `resolve_command_path`, from what `command -v` returned. -/
def resolveCommandPath (exitCode : Nat) (stdout : String) : Option String :=
  if exitCode ≠ 0 then none
  else if trim stdout = "" then none else some (trim stdout)

def escapeChar (cell : Char × Nat) : List Char :=
  if [',', ':', '=', '\\'].contains cell.1 || cell.2 == 0 && cell.1 == '^' then ['\\', cell.1]
  else [cell.1]

def escapeSudoersArgToken (token : List Char) : List Char := token.zipIdx.flatMap escapeChar

/-- `str::split_whitespace`. -/
def words (s : String) : List (List Char) := (s.toList.splitOnP isWhitespace).filter (· ≠ [])

def renderSudoersCommandSpec (commandSpec : String) : List Char :=
  [' '].intercalate ((words commandSpec).map escapeSudoersArgToken)

def ruleHead (username : String) : String := username ++ " ALL=(root) NOPASSWD: "

namespace ResolvedSudoCommand

variable (entry : ResolvedSudoCommand)

def comment : String := "# " ++ entry.commandPath ++ ": " ++ entry.explanation

def setenv : String := if entry.needsSetenv then "SETENV: " else ""

def rule (username : String) : List Char :=
  (ruleHead username ++ entry.setenv).toList ++ renderSudoersCommandSpec entry.commandPath

end ResolvedSudoCommand

def header : String := "# Managed by Uptrakit - DO NOT EDIT MANUALLY\n" ++
  "# Regenerated by uptrakit: SSH host sync or 'bootstrap-host'\n"

def writeEntry (username : String) (out : String) (entry : ResolvedSudoCommand) : String :=
  out ++ (entry.comment ++ "\n") ++ (String.ofList (entry.rule username) ++ "\n")

def generateSudoersContent (username : String) : SudoersContent → String
  | .allCommands => header ++ (ruleHead username ++ "ALL\n")
  | .specificCommands entries =>
    entries.foldl (writeEntry username) header

/-! ## What the file says -/

def linesOf (text : String) : List (List Char) := (text.toList.splitOn '\n').dropLast

/-- A comment of `sudoers(5)`: neither a directive nor a user id. -/
def isComment (line : List Char) : Bool :=
  match line.take 8 with
  | '#' :: rest => rest != "include".toList && !rest.head?.any Char.isDigit
  | _ => false

def unescape : List Char → List Char
  | '\\' :: c :: rest => c :: unescape rest
  | c :: rest => c :: unescape rest
  | [] => []

/-- The line is a rule that grants the command. -/
def IsRuleFor (username : String) (entry : ResolvedSudoCommand) (line : List Char) : Prop :=
  ∃ spec, line = (ruleHead username ++ entry.setenv).toList ++ spec ∧
    unescape spec = [' '].intercalate (words entry.commandPath)

/-- The lines that are no comments are, in order, one rule for each command. -/
def GrantsListed (username : String) (entries : List ResolvedSudoCommand) : Prop :=
  Forall₂ (IsRuleFor username) entries
    ((linesOf (generateSudoersContent username (.specificCommands entries))).filter
      (!isComment ·))

variable {username : String} {entries : List ResolvedSudoCommand}

theorem unescape_escapeChar (cell rest) :
    unescape (escapeChar cell ++ rest) = cell.1 :: unescape rest := by
  unfold escapeChar
  split
  · rfl
  · rename_i hp
    rw [singleton_append, unescape]
    intro c rest' hch
    rw [hch] at hp
    exact absurd rfl hp

theorem unescape_token (token k rest) :
    unescape ((token.zipIdx k).flatMap escapeChar ++ rest) = token ++ unescape rest := by
  induction token generalizing k with
  | nil => rfl
  | cons ch token ih =>
    rw [zipIdx_cons, flatMap_cons, append_assoc, unescape_escapeChar, ih, cons_append]

/-- Undoing the escapes of a command gives its words back. -/
theorem unescape_intercalate (tokens : List (List Char)) :
    unescape ([' '].intercalate (tokens.map escapeSudoersArgToken)) = [' '].intercalate tokens := by
  induction tokens with
  | nil => rfl
  | cons token tokens ih =>
    cases tokens with
    | nil => simpa [escapeSudoersArgToken, unescape] using unescape_token token 0 []
    | cons =>
      simp only [map_cons, intercalate_cons_cons] at ih ⊢
      rw [escapeSudoersArgToken, append_assoc, unescape_token, ← ih, append_assoc]
      rfl

theorem eq_false_of_mem_splitOnP {p : Char → Bool} {text word : List Char} {c}
    (hw : word ∈ text.splitOnP p) (hc : c ∈ word) : p c = false := by
  induction text generalizing word with
  | nil => simp_all
  | cons d text ih =>
    rw [splitOnP_cons_eq_if_modifyHead] at hw
    obtain ⟨first, others, hs⟩ := exists_cons_of_ne_nil (splitOnP_ne_nil p text)
    split at hw
    · grind
    · rw [hs, modifyHead_cons] at hw
      grind

theorem not_mem_render {tokens : List (List Char)} (h : ∀ token ∈ tokens, '\n' ∉ token) :
    '\n' ∉ [' '].intercalate (tokens.map escapeSudoersArgToken) := by
  have hch : ∀ cell : Char × Nat, '\n' ∈ escapeChar cell → '\n' = cell.1 := by
    intro cell hm
    unfold escapeChar at hm
    split at hm <;> simpa using hm
  have ht : ∀ token ∈ tokens, '\n' ∉ escapeSudoersArgToken token := by
    intro token ht hm
    obtain ⟨cell, hc, hm⟩ := mem_flatMap.mp hm
    exact h token ht (hch cell hm ▸ fst_mem_of_mem_zipIdx hc)
  clear h
  induction tokens with
  | nil => simp
  | cons _ tokens ih =>
    obtain ⟨hf, ht⟩ := forall_mem_cons.mp ht
    cases tokens with
    | nil => simpa using hf
    | cons => simpa [hf] using ih ht

/-- A rule is one line. -/
theorem not_mem_rule (hu : ∀ c ∈ username.toList, isWhitespace c = false) (entry) :
    '\n' ∉ ResolvedSudoCommand.rule entry username := by
  have hu : '\n' ∉ username.toList := fun h => absurd (hu _ h) (by decide)
  have hsp : '\n' ∉ renderSudoersCommandSpec entry.commandPath := by
    refine not_mem_render fun word hw hm => ?_
    exact absurd (eq_false_of_mem_splitOnP (mem_filter.mp hw).1 hm) (by decide)
  have hs : '\n' ∉ entry.setenv.toList := by
    unfold ResolvedSudoCommand.setenv
    split <;> decide
  simp [ResolvedSudoCommand.rule, ruleHead, hu, hsp, hs]

/-- The lines of the comments, and the rules. -/
theorem linesOf_foldl (hu : ∀ c ∈ username.toList, isWhitespace c = false) {out : String} {pre}
    (ho : out.toList = pre ++ ['\n']) (entries) :
    linesOf (foldl (writeEntry username) out entries) = pre.splitOn '\n' ++
      entries.flatMap fun entry => entry.comment.toList.splitOn '\n' ++ [entry.rule username] := by
  induction entries generalizing out pre with
  | nil => simp [linesOf, ho, splitOn_append_cons_self]
  | cons entry entries ih =>
    have ho' : (writeEntry username out entry).toList =
        (pre ++ '\n' :: (entry.comment.toList ++ '\n' :: entry.rule username)) ++ ['\n'] := by
      simp [writeEntry, ho]
    rw [foldl_cons, ih ho', splitOn_append_cons_self, splitOn_append_cons_self,
      splitOn_eq_singleton (not_mem_rule hu entry), flatMap_cons, append_assoc]

theorem isComment_ruleHead (spec) :
    isComment ((ruleHead username).toList ++ spec) = isComment (ruleHead username).toList := by
  rw [isComment, isComment, take_append_of_le_length]
  simp [ruleHead]

/-- The lines that are no comments. -/
theorem filter_lines (hu : ∀ c ∈ username.toList, isWhitespace c = false) :
    (linesOf (generateSudoersContent username (.specificCommands entries))).filter (!isComment ·) =
      entries.flatMap fun entry => (entry.comment.toList.splitOn '\n').filter (!isComment ·) ++
        [entry.rule username].filter (!isComment ·) := by
  have hh : header.toList = header.toList.dropLast ++ ['\n'] := by decide
  rw [generateSudoersContent, linesOf_foldl hu hh, filter_append, filter_flatMap,
    show (header.toList.dropLast.splitOn '\n').filter (!isComment ·) = [] by decide, nil_append]
  simp only [filter_append]

/-- The file grants only what is listed if and only if the name of the user does not make comments
of the rules and every line of a comment is one. -/
theorem sudoers_grants_listed_iff (hu : ∀ c ∈ username.toList, isWhitespace c = false) :
    GrantsListed username entries ↔ ∀ entry ∈ entries,
      isComment (ruleHead username).toList = false ∧
        ∀ line ∈ entry.comment.toList.splitOn '\n', isComment line = true := by
  have hr : ∀ entry : ResolvedSudoCommand,
      isComment (entry.rule username) = isComment (ruleHead username).toList := by
    intro entry
    rw [ResolvedSudoCommand.rule, String.toList_append, append_assoc, isComment_ruleHead]
  constructor
  · intro h entry he
    have hh : isComment (ruleHead username).toList = false := by
      obtain ⟨first, others, rfl⟩ := exists_cons_of_ne_nil (ne_nil_of_mem he)
      obtain ⟨_, rest, ⟨spec, rfl, -⟩, -, heq⟩ := forall₂_cons_left_iff.mp h
      have hli := (mem_filter.mp (heq ▸ mem_cons_self)).2
      rwa [String.toList_append, append_assoc, isComment_ruleHead, Bool.not_eq_true'] at hli
    have hl := h.length_eq
    rw [filter_lines hu] at hl
    have hz : (entries.map fun e =>
        ((e.comment.toList.splitOn '\n').filter (!isComment ·)).length).sum = 0 := by
      simpa [sum_map_add, hr, hh] using hl
    have hn := sum_eq_zero_iff.mp hz _ (mem_map_of_mem he)
    exact ⟨hh, by simpa using hn⟩
  · intro h
    rw [GrantsListed, filter_lines hu]
    induction entries with
    | nil => exact .nil
    | cons entry entries ih =>
      obtain ⟨⟨hh, hc⟩, h⟩ := forall_mem_cons.mp h
      have hn : (entry.comment.toList.splitOn '\n').filter (!isComment ·) = [] := by
        simpa using hc
      rw [flatMap_cons, hn, filter_cons_of_pos (by simp [hr, hh])]
      exact .cons ⟨_, rfl, unescape_intercalate _⟩ (ih h)

/-- A host that answers with a second line. -/
def twoLines : List ResolvedSudoCommand :=
  ((resolveCommandPath 0 "/x\nu ALL=NOPASSWD: ALL\n").map (⟨·, "x", false⟩)).toList

theorem plain_u : ∀ c ∈ "u".toList, isWhitespace c = false := by
  intro c hc
  rw [show "u".toList = ['u'] from rfl, mem_singleton] at hc
  rw [hc]
  rfl

/-- One entry of two lines grants a command that is not listed. -/
theorem sudoers_grants_more : twoLines.length = 1 ∧ ¬ GrantsListed "u" twoLines := by
  refine ⟨by decide +kernel, fun h => ?_⟩
  have hl := h.length_eq
  rw [filter_lines plain_u] at hl
  exact absurd hl (by decide +kernel)

/-- Two commands, of which the second needs escapes. -/
def twoCommands : List ResolvedSudoCommand :=
  [⟨"/x", "x", false⟩, ⟨"/y --set a=b,c", "y", true⟩]

theorem sudoers_grants_listed_iff_twoCommands :
    String.ofList ((ResolvedSudoCommand.mk "/y --set a=b,c" "y" true).rule "u") =
        "u ALL=(root) NOPASSWD: SETENV: /y --set a\\=b\\,c" ∧
      GrantsListed "u" twoCommands :=
  ⟨by decide +kernel, (sudoers_grants_listed_iff plain_u).mpr (by decide +kernel)⟩

end Uptrakit.Agent.Sudoers
