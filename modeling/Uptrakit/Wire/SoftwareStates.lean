import Uptrakit.Update.History

/-!
# Software states on the wire

What the controller tells the MQTT service about a tenant: the featured software items
with their hosts, a summary of the other packages of each host, and the hosts
(`crates/shared/wire/src/payloads.rs`).  Large tenants are delivered in pages.  Times are
numbers in place of their texts.
-/

namespace Uptrakit.Wire

open Update (Uuid)

structure SoftwareStateHostEntry where
  hostId : Uuid
  hostname : String
  friendlyName : String
  installedVersion : Option String
  latestVersion : Option String
  updateAvailable : Bool
  updateInProgress : Bool
  releaseUrl : Option String
  releaseNotes : Option String
  updateCategory : Option String
  releaseDate : Option String
  lastCheckedAt : Option Int
  deriving DecidableEq

structure SoftwareStateItem where
  softwareItemId : Uuid
  name : String
  iconUrl : Option String
  hosts : List SoftwareStateHostEntry
  deriving DecidableEq

structure HostPackageSummary where
  hostId : Uuid
  hostname : String
  friendlyName : String
  pendingCount : Nat
  securityPendingCount : Nat
  totalCount : Nat
  updateInProgress : Bool
  bugfixCount : Nat
  featureCount : Nat
  deriving DecidableEq

structure HostStateMetadata where
  hostId : Uuid
  hostname : String
  friendlyName : String
  osType : Option String
  osVersion : Option String
  architecture : Option String
  tags : List String
  agentVersion : Option String
  agentLastSeenAt : Option Int
  deriving DecidableEq

structure SoftwareStatesPage where
  pageIndex : Nat
  totalPages : Nat
  deriving DecidableEq

def SoftwareStatesPage.isLast (page : SoftwareStatesPage) : Bool :=
  page.pageIndex + 1 == page.totalPages

structure SoftwareStatesPayload where
  items : List SoftwareStateItem
  hostSummaries : List HostPackageSummary
  hosts : List HostStateMetadata
  page : SoftwareStatesPage
  deriving DecidableEq

def SoftwareStatesPayload.hostIds (payload : SoftwareStatesPayload) : List Uuid :=
  payload.hosts.map (·.hostId)

end Uptrakit.Wire
