import Uptrakit.Text.Quoting

/-!
# Commands built from templates

The shell plugin and the docker plugin put values into a command template:
`shell_escape` quotes each value, and `str::replace` puts it in the place of its
placeholder, one placeholder after the other.

To say that a value stays literal, the characters of the command carry the value
they come from (`tracedCommand`); without these origins the traced command is the
command of the source (`map_tracedCommand`).
-/

namespace Uptrakit

open List

/-- `str::replace`, for a pattern that is not empty. -/
def Text.replaceStr (s pat rep : String) : String :=
  String.ofList (Text.replace some pat.toList rep.toList s.toList)

namespace Plugin

open Text

def shellEscape (s : String) : String := "'" ++ replaceStr s "'" "'\\''" ++ "'"

theorem toList_shellEscape (s) : (shellEscape s).toList = quoted id id s.toList := by
  have h : replace some ['\x27'] ['\x27', '\\', '\x27', '\x27'] s.toList = s.toList.flatMap fun c =>
      if c = '\x27' then ['\x27', '\\', c, '\x27'] else [c] := by
    rw [replace_singleton]
    congr 1
    funext c
    by_cases hc : c = '\x27' <;> simp [hc]
  simp only [shellEscape, replaceStr, String.toList_append, String.toList_ofList]
  rw [show "'".toList = ['\x27'] from rfl,
    show "'\\''".toList = ['\x27', '\\', '\x27', '\x27'] from rfl, h]
  rfl

/-! ## Values with their origin -/

section

variable {ι : Type*} (name value : ι → String) (order : List ι) (template : String)

/-- A character that comes from no value: the text of the template and the quoting. -/
def ownChar (c : Char) : Char × Option ι := (c, none)

def tracedValue (i : ι) : List (Char × Option ι) := (value i).toList.map (·, some i)

def substitute : String :=
  order.foldl (fun s i => replaceStr s (name i) (shellEscape (value i))) template

/-- The command with the origin of its characters. -/
def tracedCommand : List (Char × Option ι) :=
  replaceEach (shown Prod.fst) (fun i => (name i).toList)
    (fun i => quoted Prod.fst ownChar (tracedValue value i)) order (template.toList.map ownChar)

def templateHoles : List (Char × Option ι ⊕ ι) :=
  holes (shown Prod.fst) (fun i => (name i).toList) order (template.toList.map ownChar)

/-- What the template says: its own text, each placeholder standing for its value as
literal characters.  A template with a placeholder inside quotes, in a comment or right after a
dollar sign says nothing. -/
def intended : Option (List (Reading (Char × Option ι)) × Mode (Char × Option ι)) :=
  readTemplate Prod.fst (tracedValue value) (.bare .start) (templateHoles name order template)

/-- The command reads as what the template says. -/
def StaysLiteral : Prop :=
  some (read Prod.fst (.bare .start) (tracedCommand name value order template)) =
    intended name value order template

instance [DecidableEq ι] : Decidable (StaysLiteral name value order template) :=
  inferInstanceAs (Decidable (_ = _))

variable {name value order template}

theorem map_tracedValue (i) : (tracedValue value i).map Prod.fst = (value i).toList := by
  rw [tracedValue, map_map]
  exact map_id _

theorem map_tracedCommand :
    (tracedCommand name value order template).map Prod.fst =
      (substitute name value order template).toList := by
  have hr : ∀ i, (quoted Prod.fst ownChar (tracedValue value i)).map Prod.fst =
      (shellEscape (value i)).toList := by
    intro i
    have hm : (quoted Prod.fst ownChar (tracedValue value i)).map Prod.fst =
        quoted id id ((tracedValue value i).map Prod.fst) := by
      refine map_quoted Prod.fst ?_ ?_ _ <;> exact fun _ => rfl
    rw [hm, toList_shellEscape, map_tracedValue]
  have hf : replaceEach some (fun i => (name i).toList) (fun i => (shellEscape (value i)).toList)
      order template.toList = (substitute name value order template).toList := by
    induction order generalizing template with
    | nil => rfl
    | cons i _ ih =>
      have hs := @ih (replaceStr template (name i) (shellEscape (value i)))
      rw [replaceStr, String.toList_ofList] at hs
      exact hs
  have hk : ∀ a : Char × Option ι, some a.1 = shown Prod.fst a := fun _ => rfl
  rw [tracedCommand, map_replaceEach Prod.fst hk, map_map]
  simp only [hr]
  rw [← hf]
  exact congrArg _ (map_id _)

variable (name value order template) in
/-- No character of a value is read outside quotes. -/
def ValuesQuoted : Prop :=
  ∀ x ∈ (read Prod.fst (.bare .start) (tracedCommand name value order template)).1,
    x.symbol.2.isSome → x = .literal x.symbol

theorem StaysLiteral.valuesQuoted (h : StaysLiteral name value order template) :
    ValuesQuoted name value order template := by
  intro x hx hv
  refine (mem_readTemplate h.symm hx).resolve_right fun hm => ?_
  obtain ⟨i, -, hm⟩ | hm := mem_replaceEach hm
  · simp at hm
  · obtain ⟨c, -, hc⟩ : ∃ c ∈ template.toList, ownChar c = x.symbol := by simpa using hm
    rw [← hc] at hv
    cases hv

/-- A template whose placeholders stand outside any quoting: its command reads as the template, with
the values in quotes, exactly if no value that is put in brings in a placeholder that is replaced
later. -/
theorem literal_iff [DecidableEq ι] (hn : Placeholders (fun i => (name i).toList) order)
    (h : (intended name value order template).isSome) :
    StaysLiteral name value order template ∧ ValuesQuoted name value order template ↔
      order.Pairwise fun i j =>
        .inr i ∈ templateHoles name order template → ¬ (name j).toList <:+: (value i).toList := by
  rw [and_iff_left_of_imp StaysLiteral.valuesQuoted]
  obtain ⟨r, hr⟩ := Option.isSome_iff_exists.mp h
  have ht : Traced Prod.fst ownChar (tracedValue value) fun i a => a.2 == some i := by
    refine ⟨fun _ => rfl, fun _ _ => rfl, ?_, ?_⟩
    · rintro i a ha
      obtain ⟨c, -, rfl⟩ := mem_map.mp ha
      exact beq_self_eq_true _
    · rintro i k hne a ha
      obtain ⟨c, -, rfl⟩ := mem_map.mp ha
      simpa using hne.symm
  have hm : ∀ i : ι, ∀ a ∈ template.toList.map ownChar, (a.2 == some i) = false := by
    rintro i a ha
    obtain ⟨c, -, rfl⟩ := mem_map.mp ha
    rfl
  rw [StaysLiteral, hr, Option.some.injEq, tracedCommand, read_replaceEach_quoted_iff ht hn hm hr]
  simp only [occurs_iff_isInfix, map_tracedValue]
  rfl

end

/-! ## The shell plugin -/

inductive PluginError
  | configuration (message : String)
  | installFailed (message : String)

structure CommandSpec where
  command : String
  timeout : Option Nat

structure ExecuteUpdateResult where
  output : String
  resumable : Bool

structure ShellConfig where
  updateCommand : Option String
  timeoutSeconds : Option Nat
  resumable : Bool

/-- The placeholders of `update_command`. -/
inductive ShellPlaceholder
  | version
  | tag
  | packageIdentifier
  deriving DecidableEq

namespace ShellPlaceholder

def name : ShellPlaceholder → String
  | version => "{version}"
  | tag => "{tag}"
  | packageIdentifier => "{package_identifier}"

/-- The value of a placeholder; a release without tag is named by its version. -/
def value (identifier toVersion : String) (releaseTag : Option String) : ShellPlaceholder → String
  | version => toVersion
  | tag => releaseTag.getD toVersion
  | packageIdentifier => identifier

def order : List ShellPlaceholder := [version, tag, packageIdentifier]

theorem placeholders : Placeholders (fun i => (name i).toList) order := by
  constructor <;> decide

end ShellPlaceholder

namespace ShellPlugin

/-- The command that `execute_update` builds. -/
def command (template identifier toVersion : String) (releaseTag : Option String) : String :=
  let tag := releaseTag.getD toVersion
  let cmd := replaceStr template "{version}" (shellEscape toVersion)
  let cmd := replaceStr cmd "{tag}" (shellEscape tag)
  replaceStr cmd "{package_identifier}" (shellEscape identifier)

/-- Run the update command; `execute` is the executor, with its output or its error. -/
def executeUpdate (execute : CommandSpec → Except String String) (config : ShellConfig)
    (identifier toVersion : String) (releaseTag : Option String) :
    Except PluginError ExecuteUpdateResult :=
  match config.updateCommand with
  | none =>
    .error (.configuration "execute_update is not configured: update_command is absent")
  | some template =>
    match execute ⟨command template identifier toVersion releaseTag, config.timeoutSeconds⟩ with
    | .ok output => .ok ⟨output, config.resumable⟩
    | .error e => .error (.installFailed ("update_command failed: " ++ e))

end ShellPlugin

/-! ## The docker plugin -/

structure ImageRef where
  image : String
  tag : String

structure DockerConfig where
  trackedTag : Option String
  postPullCommand : Option String

/-- The configured tag goes before the tag of the image. -/
def DockerConfig.resolvedTrackedTag (config : DockerConfig) (imageTag : String) : String :=
  config.trackedTag.getD imageTag

/-- The placeholders of `post_pull_command`. -/
inductive DockerPlaceholder
  | image
  | tag
  | digest
  deriving DecidableEq

namespace DockerPlaceholder

def name : DockerPlaceholder → String
  | image => "{image}"
  | tag => "{tag}"
  | digest => "{digest}"

/-- The value of a placeholder; an image that cannot be inspected has no digest. -/
def value (config : DockerConfig) (ir : ImageRef) (inspected : Option String) :
    DockerPlaceholder → String
  | image => ir.image
  | tag => config.resolvedTrackedTag ir.tag
  | digest => inspected.getD ""

def order : List DockerPlaceholder := [image, tag, digest]

theorem placeholders : Placeholders (fun i => (name i).toList) order := by
  constructor <;> decide

end DockerPlaceholder

namespace DockerPlugin

/-- The command that `execute_update` builds after it has pulled the image. -/
def command (template : String) (config : DockerConfig) (ir : ImageRef)
    (inspected : Option String) : String :=
  let cmd := replaceStr template "{image}" (shellEscape ir.image)
  let cmd := replaceStr cmd "{tag}" (shellEscape (config.resolvedTrackedTag ir.tag))
  replaceStr cmd "{digest}" (shellEscape (inspected.getD ""))

def postPull (config : DockerConfig) (ir : ImageRef) (inspected : Option String) :
    Option CommandSpec :=
  config.postPullCommand.map fun template => ⟨command template config ir inspected, none⟩

end DockerPlugin

-- A quote after a dollar sign knows escapes, and a newline of the value ends a comment.
example : let value := ShellPlaceholder.value "pkg" "\\'; reboot #" none
    intended ShellPlaceholder.name value ShellPlaceholder.order "echo ${version}" = none ∧
      intended ShellPlaceholder.name value ShellPlaceholder.order
        "# to {version}\n./install {version}" = none := by
  decide

end Plugin

end Uptrakit
