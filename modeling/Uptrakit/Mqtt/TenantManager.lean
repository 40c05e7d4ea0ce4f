import Uptrakit.Data.Writes
import Uptrakit.Wire.SoftwareStates

/-!
# The MQTT tenant manager

The MQTT service keeps the software states of a tenant and publishes them as retained
messages (`crates/core/mqtt-runtime/src/tenant_manager.rs` and `state_publisher.rs`).
Pages are merged until the last one has arrived; the full state then replaces the caches,
the topics of what has gone are cleared, and those of what is there are written.

The model has one tenant and one client.  Topics are given by what they are about, JSON
payloads by the data they are built from.
-/

namespace Uptrakit.Mqtt

open Update (Uuid)
open Wire

/-! ## Pages -/

structure PartialSoftwareStates where
  items : List SoftwareStateItem
  hostSummaries : List HostPackageSummary
  hosts : List HostStateMetadata
  deriving DecidableEq

namespace PartialSoftwareStates

def new : PartialSoftwareStates := ⟨[], [], []⟩

def addItem (items : List SoftwareStateItem) (item : SoftwareStateItem) :
    List SoftwareStateItem :=
  if items.any (·.softwareItemId == item.softwareItemId) then
    items.map fun known =>
      if known.softwareItemId == item.softwareItemId then
        { known with hosts := known.hosts ++ item.hosts }
      else known
  else items ++ [item]

def extend (states : PartialSoftwareStates) (page : SoftwareStatesPayload) :
    PartialSoftwareStates where
  items := page.items.foldl addItem states.items
  hostSummaries := states.hostSummaries ++ page.hostSummaries
  hosts := states.hosts ++ page.hosts

def hostIds (states : PartialSoftwareStates) : List Uuid := states.hosts.map (·.hostId)

@[simp] theorem hostIds_extend (states : PartialSoftwareStates) (page : SoftwareStatesPayload) :
    (states.extend page).hostIds = states.hostIds ++ page.hostIds := List.map_append

end PartialSoftwareStates

/-- What a page does to the pages that were merged, and the full state that it completes. -/
def accumulate (buffer : Option PartialSoftwareStates) (page : SoftwareStatesPayload) :
    Option PartialSoftwareStates × Option PartialSoftwareStates :=
  if page.page.pageIndex = 0 then
    let states := PartialSoftwareStates.new.extend page
    -- A single page is applied without touching the pages of another delivery.
    if page.page.isLast then (buffer, some states) else (some states, none)
  else if page.page.isLast then (none, buffer.map (·.extend page))
  else (buffer.map (·.extend page), none)

/-! ## Topics -/

/-- The topics of a software item on a host, `{prefix}/hosts/{host}/items/{item}/…`, and its
discovery config. -/
inductive ItemTopic
  | state
  | latestVersion
  | attributes
  | discoveryConfig
  deriving DecidableEq

/-- The topics of a host, `{prefix}/hosts/{host}/…`, and its discovery configs. -/
inductive HostTopic
  | hostname
  | friendlyName
  | packagesState
  | packagesLatestVersion
  | packagesAttributes
  | packagesDiscoveryConfig
  | securityState
  | securityLatestVersion
  | securityAttributes
  | securityDiscoveryConfig
  | info
  | tags
  | agent
  | connectivityState
  | connectivityAttributes
  | connectivityDiscoveryConfig
  deriving DecidableEq

inductive Topic
  | item (kind : ItemTopic) (itemId hostId : Uuid)
  | host (kind : HostTopic) (hostId : Uuid)
  deriving DecidableEq

structure HostOsInfo where
  osType : Option String
  osVersion : Option String
  architecture : Option String
  deriving DecidableEq

inductive Payload
  | text (text : String)
  | itemAttributes (inProgress : Bool) (updateCategory releaseDate : Option String)
      (lastCheckedAt : Option Int)
  | packagesAttributes (inProgress : Bool)
      (pendingCount totalCount bugfixCount featureCount : Nat)
  | securityAttributes (inProgress : Bool) (pendingCount : Nat)
  | info (os : HostOsInfo)
  | tags (tags : List String)
  | agent (lastSeen : Option Int) (version : Option String)
  | discoveryConfig (name friendlyName : String) (releaseUrl iconUrl : Option String)
      (os : HostOsInfo)

/-- The message that the broker retains: none for an empty payload. -/
def Payload.retained : Payload → Option Payload
  | text "" => none
  | payload => some payload

abbrev Publish := Topic × Payload

/-! ## Clients -/

structure ClientState where
  haDiscovery : Bool
  connected : Bool
  retained : Topic → Option Payload

namespace ClientState

/-- A publish succeeds while the client is connected. -/
def publishRetained (client : ClientState) (message : Publish) : Option ClientState :=
  if client.connected then
    some { client with
      retained := Function.update client.retained message.1 message.2.retained }
  else none

/-- `publish_or_abort!`: the first failure ends the function. -/
def publishOrAbort (client : ClientState) : List Publish → ClientState
  | [] => client
  | message :: messages =>
    match client.publishRetained message with
    | none => client
    | some client => client.publishOrAbort messages

/-- `publish_best_effort!`: failures are reported. -/
def publishBestEffort (client : ClientState) : List Publish → ClientState
  | [] => client
  | message :: messages =>
    match client.publishRetained message with
    | none => client.publishBestEffort messages
    | some client => client.publishBestEffort messages

def publishEach (client : ClientState) (calls : List (List Publish)) : ClientState :=
  calls.foldl publishOrAbort client

end ClientState

/-! ## What is published -/

def displayName (friendlyName hostname : String) : String :=
  if friendlyName.isEmpty then hostname else friendlyName

/-- `os_info_from_meta`: the last entry of a host counts. -/
def osInfoFromMeta (metadata : List HostStateMetadata) (hostId : Uuid) : HostOsInfo :=
  match metadata.reverse.find? (·.hostId == hostId) with
  | none => ⟨none, none, none⟩
  | some host => ⟨host.osType, host.osVersion, host.architecture⟩

def publishHostIdentity (hostId : Uuid) (hostname friendlyName : String) : List Publish :=
  [(.host .hostname hostId, .text hostname), (.host .friendlyName hostId, .text friendlyName)]

def publishItemStateTopics (item : SoftwareStateItem) (host : SoftwareStateHostEntry) :
    List Publish :=
  [(.item .state item.softwareItemId host.hostId, .text (host.installedVersion.getD "")),
    (.item .latestVersion item.softwareItemId host.hostId, .text (host.latestVersion.getD "")),
    (.item .attributes item.softwareItemId host.hostId,
      .itemAttributes host.updateInProgress host.updateCategory host.releaseDate
        host.lastCheckedAt)]

def publishItemHaConfig (metadata : List HostStateMetadata) (item : SoftwareStateItem)
    (host : SoftwareStateHostEntry) : List Publish :=
  [(.item .discoveryConfig item.softwareItemId host.hostId,
    .discoveryConfig item.name (displayName host.friendlyName host.hostname) host.releaseUrl
      item.iconUrl (osInfoFromMeta metadata host.hostId))]

/-- `publish_software_states`; the identity of a host is published once. -/
def publishSoftwareStates (haDiscovery : Bool) (metadata : List HostStateMetadata) :
    (published : List Uuid) → List (SoftwareStateItem × SoftwareStateHostEntry) →
      List (List Publish)
  | _, [] => []
  | published, (item, host) :: pairs =>
    (if published.contains host.hostId then []
      else [publishHostIdentity host.hostId host.hostname host.friendlyName]) ++
    publishItemStateTopics item host ::
    (if haDiscovery then [publishItemHaConfig metadata item host] else []) ++
    publishSoftwareStates haDiscovery metadata (host.hostId :: published) pairs

def entries (items : List SoftwareStateItem) :
    List (SoftwareStateItem × SoftwareStateHostEntry) :=
  items.flatMap fun item => item.hosts.map fun host => (item, host)

def pendingStateString (pendingCount : Nat) : String :=
  if 0 < pendingCount then "unknown" else "up-to-date"

def pendingLatestVersionString (pendingCount : Nat) : String :=
  if 0 < pendingCount then toString pendingCount ++ " available" else "up-to-date"

def hostPackagesStateString : Nat → String := pendingStateString

def hostPackagesLatestVersionString : Nat → String := pendingLatestVersionString

def hostSecurityStateString : Nat → String := pendingStateString

def hostSecurityLatestVersionString : Nat → String := pendingLatestVersionString

def publishHostSummaryStateTopics (summary : HostPackageSummary) : List Publish :=
  [(.host .packagesState summary.hostId, .text (hostPackagesStateString summary.pendingCount)),
    (.host .packagesLatestVersion summary.hostId,
      .text (hostPackagesLatestVersionString summary.pendingCount)),
    (.host .packagesAttributes summary.hostId,
      .packagesAttributes summary.updateInProgress summary.pendingCount summary.totalCount
        summary.bugfixCount summary.featureCount),
    (.host .securityState summary.hostId,
      .text (hostSecurityStateString summary.securityPendingCount)),
    (.host .securityLatestVersion summary.hostId,
      .text (hostSecurityLatestVersionString summary.securityPendingCount)),
    (.host .securityAttributes summary.hostId,
      .securityAttributes summary.updateInProgress summary.securityPendingCount)]

def publishHostSummaryHaConfigs (metadata : List HostStateMetadata)
    (summary : HostPackageSummary) : List Publish :=
  let name := displayName summary.friendlyName summary.hostname
  let os := osInfoFromMeta metadata summary.hostId
  [(.host .packagesDiscoveryConfig summary.hostId,
      .discoveryConfig "Packages Update" name none none os),
    (.host .securityDiscoveryConfig summary.hostId,
      .discoveryConfig "Security Updates" name none none os)]

def publishHostSummaryStates (haDiscovery : Bool) (metadata : List HostStateMetadata)
    (summaries : List HostPackageSummary) : List (List Publish) :=
  summaries.flatMap fun summary =>
    publishHostIdentity summary.hostId summary.hostname summary.friendlyName ::
    publishHostSummaryStateTopics summary ::
    (if haDiscovery then [publishHostSummaryHaConfigs metadata summary] else [])

/-- `publish_host_metadata` has all its publishes in one function. -/
def publishHostMetadata (haDiscovery : Bool) (metadata : List HostStateMetadata) :
    List Publish :=
  metadata.flatMap fun host =>
    let os : HostOsInfo := ⟨host.osType, host.osVersion, host.architecture⟩
    let name := displayName host.friendlyName host.hostname
    [(.host .info host.hostId, .info os), (.host .tags host.hostId, .tags host.tags),
      (.host .agent host.hostId, .agent host.agentLastSeenAt host.agentVersion)] ++
    (if haDiscovery then
      [(.host .connectivityDiscoveryConfig host.hostId,
        .discoveryConfig (name ++ " agent") name none none os)]
    else [])

/-! ## What is cleared -/

def pairs (items : List SoftwareStateItem) : List (Uuid × Uuid) :=
  items.flatMap fun item => item.hosts.map fun host => (item.softwareItemId, host.hostId)

def computeRemovedItems (old : Option (List SoftwareStateItem)) (new : List SoftwareStateItem) :
    List (Uuid × Uuid) :=
  match old with
  | none => []
  | some old => (pairs old).filter fun pair => !(pairs new).contains pair

def computeRemovedHostIds (old : Option (List Uuid)) (new : List Uuid) : List Uuid :=
  match old with
  | none => []
  | some old => old.filter fun hostId => !new.contains hostId

def clear (topics : List Topic) : List Publish := topics.map fun topic => (topic, .text "")

def cleanupRemovedItems (haDiscovery : Bool) (removed : List (Uuid × Uuid)) : List Publish :=
  removed.flatMap fun pair =>
    clear ([.item .state pair.1 pair.2, .item .latestVersion pair.1 pair.2,
        .item .attributes pair.1 pair.2] ++
      if haDiscovery then [.item .discoveryConfig pair.1 pair.2] else [])

def cleanupRemovedHostSummaries (haDiscovery : Bool) (removed : List Uuid) : List Publish :=
  removed.flatMap fun hostId =>
    clear ([.host .packagesState hostId, .host .packagesLatestVersion hostId,
        .host .packagesAttributes hostId, .host .securityState hostId,
        .host .securityLatestVersion hostId, .host .securityAttributes hostId] ++
      if haDiscovery then
        [.host .packagesDiscoveryConfig hostId, .host .securityDiscoveryConfig hostId]
      else [])

def cleanupRemovedHostMetadata (haDiscovery : Bool) (removed : List Uuid) : List Publish :=
  removed.flatMap fun hostId =>
    clear ([.host .hostname hostId, .host .friendlyName hostId, .host .info hostId,
        .host .tags hostId, .host .agent hostId, .host .connectivityState hostId,
        .host .connectivityAttributes hostId] ++
      if haDiscovery then [.host .connectivityDiscoveryConfig hostId] else [])

/-! ## The manager -/

structure TenantManager where
  partialStates : Option PartialSoftwareStates
  softwareStates : Option (List SoftwareStateItem)
  hostSummaryStates : Option (List HostPackageSummary)
  hostMetadata : Option (List HostStateMetadata)
  client : ClientState

namespace TenantManager

/-- A new manager whose client has not connected yet, with nothing on the broker. -/
def new (haDiscovery : Bool) : TenantManager :=
  ⟨none, none, none, none, ⟨haDiscovery, false, fun _ => none⟩⟩

def cleanup (m : TenantManager) (states : PartialSoftwareStates) : List Publish :=
  cleanupRemovedItems m.client.haDiscovery
      (computeRemovedItems m.softwareStates states.items) ++
    cleanupRemovedHostSummaries m.client.haDiscovery
      (computeRemovedHostIds (m.hostSummaryStates.map (·.map (·.hostId)))
        (states.hostSummaries.map (·.hostId))) ++
    cleanupRemovedHostMetadata m.client.haDiscovery
      (computeRemovedHostIds (m.hostMetadata.map (·.map (·.hostId)))
        (states.hosts.map (·.hostId)))

def publications (haDiscovery : Bool) (softwareStates : List SoftwareStateItem)
    (hostSummaries : List HostPackageSummary) (metadata : List HostStateMetadata) :
    List (List Publish) :=
  publishSoftwareStates haDiscovery metadata [] (entries softwareStates) ++
    publishHostSummaryStates haDiscovery metadata hostSummaries ++
    [publishHostMetadata haDiscovery metadata]

/-- `apply_full_states`; a client that is not connected is skipped. -/
def applyFullStates (m : TenantManager) (states : PartialSoftwareStates) : TenantManager :=
  { m with
    softwareStates := some states.items
    hostSummaryStates := some states.hostSummaries
    hostMetadata := some states.hosts
    client :=
      if m.client.connected then
        (m.client.publishBestEffort (m.cleanup states)).publishEach
          (publications m.client.haDiscovery states.items states.hostSummaries states.hosts)
      else m.client }

def updateSoftwareStates (m : TenantManager) (page : SoftwareStatesPayload) : TenantManager :=
  let m' := { m with partialStates := (accumulate m.partialStates page).1 }
  match (accumulate m.partialStates page).2 with
  | none => m'
  | some states => m'.applyFullStates states

/-- `handle_reconnected`: everything that is cached is published again. -/
def handleReconnected (m : TenantManager) : TenantManager :=
  { m with
    client := { m.client with connected := true }.publishEach
      (publications m.client.haDiscovery (m.softwareStates.getD [])
        (m.hostSummaryStates.getD []) (m.hostMetadata.getD [])) }

def handleDisconnected (m : TenantManager) : TenantManager :=
  { m with client := { m.client with connected := false } }

end TenantManager

end Uptrakit.Mqtt
