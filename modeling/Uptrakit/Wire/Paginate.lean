import Uptrakit.Update.History

/-!
# Discovery reports on the wire

The payload of a discovery report and how its sender splits it: `normalize` cuts a
plugin result with too many discoveries into several entries, `paginate_payload`
distributes the entries over pages (`crates/shared/wire/src/paginate.rs`).

The length of a payload as JSON is a parameter.
-/

namespace Uptrakit.Wire

open Update (Uuid)

/-- Identifier of a plugin type, such as `package-manager.apt`. -/
abbrev PluginTypeId := String

inductive PluginRole
  | detectVersion | fetchReleases | executeUpdate | preUpdateHook | postUpdateHook
  | other (raw : String)
  deriving DecidableEq

structure DiscoveryTarget where
  pluginType : PluginTypeId
  /-- The configuration as JSON text. -/
  pluginConfig : String
  pluginConfigName : String
  roles : List PluginRole
  /-- Overrides the identifier of the item. -/
  packageIdentifier : Option String
  deriving DecidableEq

structure DiscoveredSoftware where
  packageIdentifier : String
  name : String
  installedVersion : String
  targets : List DiscoveryTarget
  qualifier : Option String
  pluginPackageIdentifier : Option String
  installedDisplayVersion : Option String
  deriving DecidableEq

structure DiscoveryPluginResult where
  pluginConfigId : Option Uuid
  pluginType : PluginTypeId
  discoveries : List DiscoveredSoftware
  error : Option String
  deriving DecidableEq

structure DiscoveryResultsPayload where
  hostMachineId : String
  results : List DiscoveryPluginResult
  deriving DecidableEq

/-! ## Normalization -/

def maxDiscoveriesPerPlugin : Nat := 1000

/-- `slice::chunks`, with fuel for the number of chunks. -/
def chunksAux {α : Type*} (n : Nat) : Nat → List α → List (List α)
  | 0, _ => []
  | _, [] => []
  | fuel + 1, a :: l => (a :: l).take n :: chunksAux n fuel ((a :: l).drop n)

/-- `slice::chunks`: pieces of `n` elements, the last one may be shorter. -/
def chunks {α : Type*} (n : Nat) (l : List α) : List (List α) := chunksAux n l.length l

def DiscoveryPluginResult.split (result : DiscoveryPluginResult) : List DiscoveryPluginResult :=
  if result.discoveries.length ≤ maxDiscoveriesPerPlugin then [result]
  else (chunks maxDiscoveriesPerPlugin result.discoveries).map fun chunk =>
    { result with discoveries := chunk }

def DiscoveryResultsPayload.normalize (payload : DiscoveryResultsPayload) :
    DiscoveryResultsPayload :=
  { payload with results := payload.results.flatMap DiscoveryPluginResult.split }

/-! ## Pagination -/

def paginationSizeThreshold : Nat := 786432

structure ReportPagination where
  reportId : Uuid
  page : Nat
  totalPages : Nat
  deriving DecidableEq

/-- A page; a payload that fits in one message has no pagination. -/
structure PayloadPage where
  payload : DiscoveryResultsPayload
  pagination : Option ReportPagination

/-- The lengths of a payload and of its entries as JSON. -/
structure JsonLen where
  payload : DiscoveryResultsPayload → Nat
  item : DiscoveryPluginResult → Nat

/-- Distribute the items over pages: a page is full if the next item would exceed the
budget, or if it has as many items as a page may have. -/
def fillPages {α : Type*} (budget maxItems : Nat) (cost : α → Nat) :
    List α → List α → Nat → List (List α)
  | [], current, _ => if current.isEmpty then [] else [current]
  | item :: items, current, size =>
    if (!current.isEmpty && budget < size + cost item) || maxItems ≤ current.length then
      current :: fillPages budget maxItems cost items [item] (cost item)
    else fillPages budget maxItems cost items (current ++ [item]) (size + cost item)

/-- Split a payload into pages.  `maxItems` is the limit of the receiver, `reportId` the
fresh identifier of the report. -/
def paginatePayload (len : JsonLen) (maxItems : Nat) (reportId : Uuid)
    (payload : DiscoveryResultsPayload) : List PayloadPage :=
  let payload := payload.normalize
  if len.payload payload ≤ paginationSizeThreshold && payload.results.length ≤ maxItems then
    [⟨payload, none⟩]
  else if payload.results.isEmpty then [⟨payload, none⟩]
  else
    -- the pagination fields of the envelope take about 120 bytes, an item a comma
    let overhead := len.payload { payload with results := [] } + 150
    let pages := fillPages (paginationSizeThreshold - overhead) maxItems (len.item · + 1)
      payload.results [] 0
    pages.mapIdx fun i items =>
      ⟨{ payload with results := items }, some ⟨reportId, i % 2 ^ 32 + 1, pages.length % 2 ^ 32⟩⟩

end Uptrakit.Wire
