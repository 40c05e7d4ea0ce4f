import Uptrakit.Data.Entries
import Uptrakit.Wire.Paginate

/-!
# Version checks

`DetectVersionExecutor` and `FetchReleasesExecutor` ask the agents for the installed and
the latest versions of the software on their hosts.  The rows of
`query_agent_assignment_rows` are collected in a map for each service and host, by software
item, and each of these maps is sent as one `CheckVersions` message
(`crates/core/scheduler-runtime/src/executors`).

Every row is sent as one assignment of its own exactly if no two rows agree on service, host
and software item (`assignments_perm_rows_iff`).  Two installations of one item on one host
are merged: the one that is sent has the identifier of the first and the plugin of the
second (`installations_merged`).

Messages are sent in the order of a hash map, so only what is sent counts.
-/

namespace Uptrakit.Scheduler

open Update (Uuid)
open Wire (PluginTypeId)
open Data

/-! ## Configuration -/

/-- A JSON value, of which only the fields of objects are looked at; values are texts. -/
inductive Json
  | object (fields : List (String × String))
  | other (text : String)
  deriving DecidableEq

/-- Non-object sources are ignored. -/
def shallowMergeInto (target source : Json) : Json :=
  match target, source with
  | .object fields, .object overrides =>
    .object (overrides.foldl (fun fields (k, v) => upsert k v (fun _ => v) fields) fields)
  | _, _ => target

/-- The fields of each layer override those of the layers before. -/
def resolveEffectiveConfig (typeSettings profileConfig assignmentConfig : Option Json) : Json :=
  let merge := fun merged (layer : Option Json) => (layer.map (shallowMergeInto merged)).getD merged
  merge (merge (merge (.object []) typeSettings) profileConfig) assignmentConfig

/-! ## Rows and messages -/

structure AgentAssignmentRow where
  serviceId : Uuid
  hostMachineId : String
  softwareItemId : Uuid
  softwareItemName : String
  pluginType : String
  packageIdentifier : String
  hostSoftwareItemId : Uuid
  profileConfig : Option Json
  assignmentConfig : Option Json
  executionSite : String

structure PluginAssignment where
  pluginType : PluginTypeId
  packageIdentifier : String
  config : Json
  deriving DecidableEq

structure VersionCheckAssignment where
  softwareItemId : Uuid
  name : String
  detectVersion : Option PluginAssignment
  fetchReleases : Option PluginAssignment
  hostSoftwareItemId : Option Uuid
  deriving DecidableEq

structure CheckVersionsPayload where
  hostMachineId : String
  assignments : List VersionCheckAssignment

inductive CheckRole
  | detectVersion
  | fetchReleases

namespace VersionCheckAssignment

def plugin (a : VersionCheckAssignment) : CheckRole → Option PluginAssignment
  | .detectVersion => a.detectVersion
  | .fetchReleases => a.fetchReleases

def setPlugin (a : VersionCheckAssignment) (plugin : PluginAssignment) :
    CheckRole → VersionCheckAssignment
  | .detectVersion => { a with detectVersion := some plugin }
  | .fetchReleases => { a with fetchReleases := some plugin }

theorem softwareItemId_setPlugin (a : VersionCheckAssignment) (plugin : PluginAssignment)
    (role : CheckRole) : (a.setPlugin plugin role).softwareItemId = a.softwareItemId := by
  cases role <;> rfl

end VersionCheckAssignment

namespace AgentAssignmentRow

def plugin (row : AgentAssignmentRow) : PluginAssignment where
  pluginType := row.pluginType
  packageIdentifier := row.packageIdentifier
  config := resolveEffectiveConfig none row.profileConfig row.assignmentConfig

def blank (row : AgentAssignmentRow) : VersionCheckAssignment where
  softwareItemId := row.softwareItemId
  name := row.softwareItemName
  detectVersion := none
  fetchReleases := none
  hostSoftwareItemId := some row.hostSoftwareItemId

def key (row : AgentAssignmentRow) : (Uuid × String) × Uuid :=
  ((row.serviceId, row.hostMachineId), row.softwareItemId)

/-- An agent fetches the releases.  `controllerSide` are the plugins with the capability
`ControllerSideFetchReleases`. -/
def agentHandles (controllerSide : PluginTypeId → Bool) (row : AgentAssignmentRow) : Bool :=
  if row.executionSite = "agent" then true
  else if row.executionSite = "controller" then false
  else !controllerSide row.pluginType

end AgentAssignmentRow

/-! ## The executors -/

def byAgentHost (role : CheckRole) (rows : List AgentAssignmentRow) :
    List ((Uuid × String) × List (Uuid × VersionCheckAssignment)) :=
  rows.foldl
    (fun m row => upsert row.key.1 []
      (upsert row.key.2 row.blank (fun item => item.setPlugin row.plugin role)) m)
    []

def checkVersionsMessages (role : CheckRole)
    (m : List ((Uuid × String) × List (Uuid × VersionCheckAssignment))) :
    List (Uuid × CheckVersionsPayload) :=
  m.filterMap fun ((serviceId, hostMachineId), items) =>
    let assignments := (items.map (·.2)).filter fun a => (a.plugin role).isSome
    if assignments.isEmpty then none else some (serviceId, ⟨hostMachineId, assignments⟩)

def sendDetectVersionAssignments (rows : List AgentAssignmentRow) :
    List (Uuid × CheckVersionsPayload) :=
  if rows.isEmpty then []
  else checkVersionsMessages .detectVersion (byAgentHost .detectVersion rows)

/-- Rows that the controller handles are skipped. -/
def sendAgentFetchReleaseAssignments (controllerSide : PluginTypeId → Bool)
    (rows : List AgentAssignmentRow) : List (Uuid × CheckVersionsPayload) :=
  if rows.isEmpty then []
  else checkVersionsMessages .fetchReleases
    (byAgentHost .fetchReleases (rows.filter (·.agentHandles controllerSide)))

/-! ## What is sent -/

def sentAssignments (messages : List (Uuid × CheckVersionsPayload)) :
    List (Uuid × String × VersionCheckAssignment) :=
  messages.flatMap fun (serviceId, payload) =>
    payload.assignments.map fun a => (serviceId, payload.hostMachineId, a)

def AgentAssignmentRow.assignment (role : CheckRole) (row : AgentAssignmentRow) :
    Uuid × String × VersionCheckAssignment :=
  (row.serviceId, row.hostMachineId, row.blank.setPlugin row.plugin role)

/-- Nothing but the assignments in the maps is sent. -/
theorem sentAssignments_checkVersionsMessages (role m) :
    sentAssignments (checkVersionsMessages role m) =
      ((flatten m).filter fun e => (e.2.2.plugin role).isSome).map
        fun e => (e.1.1, e.1.2, e.2.2) := by
  induction m with
  | nil => rfl
  | cons entry _ ih =>
    obtain ⟨⟨serviceId, hostMachineId⟩, items⟩ := entry
    have hi : (((items.map fun item => ((serviceId, hostMachineId), item)).filter fun e =>
          (e.2.2.plugin role).isSome).map fun e => (e.1.1, e.1.2, e.2.2)) =
        ((items.map (·.2)).filter fun a => (a.plugin role).isSome).map
          fun a => (serviceId, hostMachineId, a) := by
      rw [List.filter_map, List.filter_map, List.map_map, List.map_map]
      rfl
    rw [flatten_cons, List.filter_append, List.map_append, ← ih, hi]
    simp only [checkVersionsMessages, List.filterMap_cons]
    split
    · next hn =>
        -- A host without assignments gets no message.
        split at hn
        · next he => rw [List.isEmpty_iff.1 he, List.map_nil, List.nil_append]
        · cases hn
    · next message hs =>
        split at hs
        · cases hs
        · cases hs
          rfl

variable {role : CheckRole} {rows : List AgentAssignmentRow}

/-- Rows with different keys are sent as one assignment each. -/
theorem sentAssignments_perm (h : (rows.map (·.key)).Nodup) :
    (sentAssignments (checkVersionsMessages role (byAgentHost role rows))).Perm
      (rows.map (·.assignment role)) := by
  have hp := flatten_foldl_upsert_perm AgentAssignmentRow.key AgentAssignmentRow.blank
    (fun row item => item.setPlugin row.plugin role) (m := []) (fun _ _ _ => List.not_mem_nil) h
  rw [sentAssignments_checkVersionsMessages]
  refine ((hp.filter _).map _).trans ?_
  have ha : ∀ e ∈ rows.map fun row => (row.key.1, row.key.2, row.blank.setPlugin row.plugin role),
      (e.2.2.plugin role).isSome = true := by
    intro e he
    obtain ⟨_, -, rfl⟩ := List.mem_map.1 he
    cases role <;> rfl
  rw [show flatten [] = ([] : List ((Uuid × String) × Uuid × VersionCheckAssignment)) from rfl,
    List.nil_append, List.filter_eq_self.2 ha, List.map_map]
  exact .refl _

def assignmentKey (a : Uuid × String × VersionCheckAssignment) : (Uuid × String) × Uuid :=
  ((a.1, a.2.1), a.2.2.softwareItemId)

theorem assignmentKey_assignment (role : CheckRole) (row : AgentAssignmentRow) :
    assignmentKey (row.assignment role) = row.key := by
  unfold assignmentKey AgentAssignmentRow.assignment
  rw [VersionCheckAssignment.softwareItemId_setPlugin]
  rfl

/-- Whatever the rows are, a software item is sent to a service and host only once. -/
theorem nodup_sentAssignments (role rows) :
    ((sentAssignments (checkVersionsMessages role (byAgentHost role rows))).map
      assignmentKey).Nodup := by
  have hm : IsMap (fun _ => IsMap fun i a => a.softwareItemId = i) (byAgentHost role rows) := by
    refine IsMap.foldl_upsert AgentAssignmentRow.key AgentAssignmentRow.blank
      (fun row item => item.setPlugin row.plugin role) (fun _ => rfl) ?_ rows
    intro row a ha
    rw [VersionCheckAssignment.softwareItemId_setPlugin]
    exact ha
  rw [sentAssignments_checkVersionsMessages, List.map_map]
  -- An entry is under the software item of its assignment.
  have hk : ∀ e ∈ (flatten (byAgentHost role rows)).filter fun e => (e.2.2.plugin role).isSome,
      (assignmentKey ∘ fun e => (e.1.1, e.1.2, e.2.2)) e = (e.1, e.2.1) := by
    intro e he
    exact congrArg (Prod.mk e.1) (hm.of_mem_flatten (List.mem_filter.1 he).1)
  rw [List.map_congr_left hk]
  exact hm.nodup_flatten.sublist (List.filter_sublist.map _)

/-- The rows are sent as one assignment each exactly if their keys differ. -/
theorem sentAssignments_perm_iff :
    (sentAssignments (checkVersionsMessages role (byAgentHost role rows))).Perm
      (rows.map (·.assignment role)) ↔ (rows.map (·.key)).Nodup := by
  constructor
  · intro hp
    have hn := (hp.map assignmentKey).nodup_iff.1 (nodup_sentAssignments role rows)
    rw [List.map_map] at hn
    rw [← List.map_congr_left fun row _ => assignmentKey_assignment role row]
    exact hn
  · exact sentAssignments_perm

/-- Every row is sent as one assignment, to its service and host and with its own identifier and
plugin, and nothing else is sent, exactly if no two rows agree on service, host and software
item.  Of the rows for releases these are the ones that agents handle. -/
theorem assignments_perm_rows_iff (rows releaseRows : List AgentAssignmentRow)
    (controllerSide : PluginTypeId → Bool) :
    ((sentAssignments (sendDetectVersionAssignments rows)).Perm
        (rows.map (·.assignment .detectVersion)) ↔
      (rows.map (·.key)).Nodup) ∧
    ((sentAssignments (sendAgentFetchReleaseAssignments controllerSide releaseRows)).Perm
        ((releaseRows.filter (·.agentHandles controllerSide)).map (·.assignment .fetchReleases)) ↔
      ((releaseRows.filter (·.agentHandles controllerSide)).map (·.key)).Nodup) := by
  constructor
  · cases rows with
    | nil => exact ⟨fun _ => List.nodup_nil, fun _ => .refl _⟩
    | cons => exact sentAssignments_perm_iff
  · cases releaseRows with
    | nil => exact ⟨fun _ => List.nodup_nil, fun _ => .refl _⟩
    | cons => exact sentAssignments_perm_iff

/-! ## Two installations -/

def installation (hostSoftwareItemId : Uuid) (packageIdentifier : String) :
    AgentAssignmentRow where
  serviceId := 1
  hostMachineId := "host"
  softwareItemId := 5
  softwareItemName := "app"
  pluginType := "docker"
  packageIdentifier := packageIdentifier
  hostSoftwareItemId := hostSoftwareItemId
  profileConfig := none
  assignmentConfig := none
  executionSite := "agent"

/-- Two installations of an item on one host: one assignment is sent, with the identifier of the
first and the package of the second. -/
theorem installations_merged :
    let rows := [installation 10 "blue", installation 11 "green"]
    (rows.map fun row => (row.serviceId, row.hostSoftwareItemId)).Nodup ∧
    (sentAssignments (sendDetectVersionAssignments rows)).map
        (fun a => (a.2.2.hostSoftwareItemId, a.2.2.detectVersion.map (·.packageIdentifier))) =
      [(some 10, some "green")] ∧
    (sentAssignments (sendAgentFetchReleaseAssignments (fun _ => false) rows)).map
        (fun a => (a.2.2.hostSoftwareItemId, a.2.2.fetchReleases.map (·.packageIdentifier))) =
      [(some 10, some "green")] := by
  decide

end Uptrakit.Scheduler
