import Mathlib.Data.List.Sort
import Uptrakit.Concurrent.Calls
import Uptrakit.Mqtt.TenantManager

/-!
# Pushing the inventory

`push_software_states_paginated_for_tenant` reads the inventory of a tenant page by page
and delivers each page to the MQTT service.  A page is cut by offset from the active
hosts, in the order of their ids, and says how many pages there are, as counted just
before.

Any number of such runs go on at once, while hosts are activated and deactivated.  The
pages of a run arrive at the tenant manager in their order, at any time after they were
sent.
-/

namespace Uptrakit.Mqtt

open Update (Uuid)
open Wire Concurrent

/-! ## The tables -/

structure HostRow where
  id : Uuid
  hostname : String
  friendlyName : String
  osType : Option String
  osVersion : Option String
  architecture : Option String
  /-- `deactivated_at` is not set. -/
  active : Bool
  deriving DecidableEq

structure HostSoftwareItemRow where
  hostId : Uuid
  softwareItemId : Uuid
  installedVersion : Option String
  installedVersionDetectedAt : Option Int
  latestVersion : Option String
  releaseUrl : Option String
  releaseNotes : Option String
  publishedAt : Option String
  updateCategory : String

/-- Both versions are known and differ. -/
def HostSoftwareItemRow.isOutdated (row : HostSoftwareItemRow) : Bool :=
  match row.installedVersion, row.latestVersion with
  | some installed, some latest => installed != latest
  | _, _ => false

structure SoftwareItemRow where
  id : Uuid
  name : String
  iconUrl : Option String
  featured : Bool

structure AgentInfoRow where
  hostId : Uuid
  clientVersion : Option String
  lastSeenAt : Option Int

/-- The tables of a tenant.  The hosts are in the order of their ids; one that is registered
later is not active before. -/
structure Inventory where
  hosts : List HostRow
  ordered : hosts.Pairwise fun a b => a.id < b.id
  hostSoftwareItems : List HostSoftwareItemRow
  softwareItems : List SoftwareItemRow
  /-- The unfinished updates, as pairs of a host and a software item. -/
  activeUpdates : List (Uuid × Uuid)
  hostTags : List (Uuid × String)
  agents : List AgentInfoRow

namespace Inventory

variable (inventory : Inventory)

def activeHosts : List HostRow := inventory.hosts.filter (·.active)

def setActive (hostId : Uuid) (active : Bool) : Inventory :=
  { inventory with
    hosts := inventory.hosts.map fun host =>
      if host.id = hostId then { host with active := active } else host
    ordered := by
      refine List.pairwise_map.2 (inventory.ordered.imp ?_)
      intro a b hab
      split <;> split <;> exact hab }

/-! ## One page -/

/-- The number of pages: at least one. -/
def totalPages (hostPageSize totalHosts : Nat) : Nat :=
  if totalHosts = 0 then 1 else (totalHosts + hostPageSize - 1) / hostPageSize

def pageHosts (hostPageSize hostPage : Nat) : List HostRow :=
  (inventory.activeHosts.drop (hostPage * hostPageSize)).take hostPageSize

def hostEntry (host : HostRow) (row : HostSoftwareItemRow) : SoftwareStateHostEntry where
  hostId := host.id
  hostname := host.hostname
  friendlyName := host.friendlyName
  installedVersion := row.installedVersion
  latestVersion := row.latestVersion
  updateAvailable := row.isOutdated
  updateInProgress := inventory.activeUpdates.contains (row.hostId, row.softwareItemId)
  releaseUrl := row.releaseUrl
  releaseNotes := row.releaseNotes
  updateCategory := some row.updateCategory
  releaseDate := row.publishedAt.map fun date => String.ofList (date.toList.take 10)
  lastCheckedAt := row.installedVersionDetectedAt

def hostSummary (host : HostRow) (updateInProgress : Bool) (rows : List HostSoftwareItemRow) :
    HostPackageSummary :=
  let outdated := rows.filter (·.isOutdated)
  { hostId := host.id
    hostname := host.hostname
    friendlyName := host.friendlyName
    pendingCount := outdated.length
    securityPendingCount := outdated.countP (·.updateCategory == "security")
    totalCount := rows.length
    updateInProgress := updateInProgress
    bugfixCount := outdated.countP (·.updateCategory == "bugfix")
    featureCount := outdated.countP (·.updateCategory == "feature") }

def latestAgent (agents : List AgentInfoRow) (hostId : Uuid) : Option AgentInfoRow :=
  (agents.filter (·.hostId == hostId)).foldl
    (fun best row =>
      let entry := best.getD ⟨hostId, none, none⟩
      match row.lastSeenAt, entry.lastSeenAt with
      | some seen, some latest => if latest < seen then some row else some entry
      | some _, none => some row
      | none, _ => some entry)
    none

/-- `build_host_metadata`, for one host. -/
def hostMetadata (host : HostRow) : HostStateMetadata :=
  let agent := latestAgent inventory.agents host.id
  { hostId := host.id
    hostname := host.hostname
    friendlyName := host.friendlyName
    osType := host.osType
    osVersion := host.osVersion
    architecture := host.architecture
    tags := (inventory.hostTags.filter (·.1 == host.id)).map (·.2)
    agentVersion := agent.bind (·.clientVersion)
    agentLastSeenAt := agent.bind (·.lastSeenAt) }

/-- The rest of `load_software_states_page_for_tenant`, for the hosts of the page. -/
def pagePayload (hosts : List HostRow) (page : SoftwareStatesPage) : SoftwareStatesPayload :=
  if hosts.isEmpty then ⟨[], [], [], page⟩
  else
    let rows := inventory.hostSoftwareItems.filter fun row => hosts.any (·.id == row.hostId)
    let featured := (inventory.softwareItems.filter fun item =>
      item.featured && rows.any (·.softwareItemId == item.id)).insertionSort (·.id ≤ ·.id)
    let unfeatured := fun softwareItemId => !featured.any (·.id == softwareItemId)
    { items := featured.filterMap fun item =>
        let entries := (rows.filter (·.softwareItemId == item.id)).filterMap fun row =>
          (hosts.find? (·.id == row.hostId)).map fun host => inventory.hostEntry host row
        if entries.isEmpty then none else some ⟨item.id, item.name, item.iconUrl, entries⟩
      hostSummaries := hosts.filterMap fun host =>
        let rows := rows.filter fun row =>
          row.hostId == host.id && unfeatured row.softwareItemId
        let updateInProgress := inventory.activeUpdates.any fun update =>
          update.1 == host.id && unfeatured update.2
        if rows.isEmpty then none else some (hostSummary host updateInProgress rows)
      hosts := hosts.map inventory.hostMetadata
      page := page }

end Inventory

/-! ## Runs of the push -/

def statesHostPageSize : Nat := 100

/-- The points of a run, with its local variables: before the hosts are counted, before the
hosts of the page are read, and before the page is built and sent. -/
inductive Point
  | count (hostPage : Nat)
  | slice (hostPage totalPages : Nat)
  | build (hostPage totalPages : Nat) (hosts : List HostRow)
  | finished
  | failed
  deriving DecidableEq

/-- A run, with the pages that it has sent and that have not arrived yet, the number of those
that have, and the full states that the manager has applied on one of its pages. -/
structure PushRun where
  point : Point
  sent : List SoftwareStatesPayload
  received : Nat
  applied : List PartialSoftwareStates
  deriving DecidableEq

inductive Operation
  | push
  | setActive (hostId : Uuid) (active : Bool)

inductive Frame
  | push (run : PushRun)
  | setActive (hostId : Uuid) (active : Bool)
  | done

inductive Choice
  | go
  | fail
  | receive

structure Tenant where
  inventory : Inventory
  manager : TenantManager

def PushRun.go (inventory : Inventory) (run : PushRun) : PushRun :=
  match run.point with
  | .count hostPage =>
    { run with
      point := .slice hostPage
        (Inventory.totalPages statesHostPageSize inventory.activeHosts.length) }
  | .slice hostPage totalPages =>
    { run with
      point := .build hostPage totalPages
        (inventory.pageHosts statesHostPageSize hostPage) }
  | .build hostPage totalPages hosts =>
    { run with
      sent := run.sent ++ [inventory.pagePayload hosts ⟨hostPage, totalPages⟩]
      point := if totalPages ≤ hostPage + 1 then .finished else .count (hostPage + 1) }
  | .finished | .failed => run

def PushRun.fail (run : PushRun) : PushRun :=
  match run.point with
  | .finished => run
  | _ => { run with point := .failed }

def PushRun.receive (manager : TenantManager) (run : PushRun) : TenantManager × PushRun :=
  match run.sent with
  | [] => (manager, run)
  | page :: sent =>
    (manager.updateSoftwareStates page,
      { run with
        sent := sent
        received := run.received + 1
        applied := run.applied ++ (accumulate manager.partialStates page).2.toList })

def step (choice : Choice) (s : Tenant) : Frame → Tenant × Frame
  | .push run =>
    match choice with
    | .go => (s, .push (run.go s.inventory))
    | .fail => (s, .push run.fail)
    | .receive =>
      ({ s with manager := (run.receive s.manager).1 }, .push (run.receive s.manager).2)
  | .setActive hostId active =>
    match choice with
    | .go => ({ s with inventory := s.inventory.setActive hostId active }, .done)
    | .fail | .receive => (s, .done)
  | .done => (s, .done)

def enter : Operation → Frame
  | .push => .push ⟨.count 0, [], 0, []⟩
  | .setActive hostId active => .setActive hostId active

def pushes : Calls Operation Choice Tenant Frame where
  enter := enter
  step := step

end Uptrakit.Mqtt
