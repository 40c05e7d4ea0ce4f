import Uptrakit.Data.Guarantee
import Uptrakit.Wire.Paginate

/-!
# The tables of discovery

The rows of `software_items`, `host_software_items` (the links between hosts and
software items), `host_software_item_plugins` and `plugin_configs` that discovery
reads and writes, with the unique indexes of the tables, and the rows of
`update_history`.
-/

namespace Uptrakit.Discovery

open Concurrent Data Wire
open Update (Uuid Time)

/-- A row of `software_items`. -/
structure SoftwareItem where
  id : Uuid
  tenantId : Uuid
  name : String
  deactivatedAt : Option Time

/-- A row of `host_software_items`. -/
structure Link where
  id : Uuid
  hostId : Uuid
  softwareItemId : Uuid
  qualifier : Option String
  packageIdentifier : Option String
  installedVersion : Option String
  installedVersionDetectedAt : Option Time
  installedDisplayVersion : Option String
  lastDiscoveredAt : Option Time
  /-- The plugin type that has discovered the link. -/
  discoverySource : Option PluginTypeId
  missingSince : Option Time
  deactivatedAt : Option Time
  deriving DecidableEq

/-- A row of `host_software_item_plugins`. -/
structure PluginLink where
  id : Uuid
  hostId : Uuid
  softwareItemId : Uuid
  hostSoftwareItemId : Uuid
  pluginConfigId : Option Uuid
  pluginType : PluginTypeId
  role : PluginRole
  ordinal : Int
  packageIdentifier : String

/-- A row of `plugin_configs`. -/
structure PluginConfig where
  id : Uuid
  tenantId : Uuid
  name : String
  pluginType : PluginTypeId
  deactivatedAt : Option Time

/-! ## Constraints -/

/-- Primary key, and unique names of the active items of a tenant
(`uq_software_items_active_name`). -/
def SoftwareItem.Clash (a b : SoftwareItem) : Prop :=
  a.id = b.id ∨ (a.tenantId = b.tenantId ∧ a.name = b.name ∧
    a.deactivatedAt = none ∧ b.deactivatedAt = none)

/-- Primary key, and unique active links between a host and an item
(`uix_hsi_unqualified`, `uix_hsi_qualified`). -/
def Link.Clash (a b : Link) : Prop :=
  a.id = b.id ∨ (a.hostId = b.hostId ∧ a.softwareItemId = b.softwareItemId ∧
    a.qualifier = b.qualifier ∧ a.deactivatedAt = none ∧ b.deactivatedAt = none)

/-- Primary key, and unique roles of a link (`uq_hsip_hsi_role_ordinal`). -/
def PluginLink.Clash (a b : PluginLink) : Prop :=
  a.id = b.id ∨ (a.hostSoftwareItemId = b.hostSoftwareItemId ∧ a.role = b.role ∧
    a.ordinal = b.ordinal)

/-- Primary key, and unique names of the active configurations of a tenant
(`uq_plugin_configs_active_name`). -/
def PluginConfig.Clash (a b : PluginConfig) : Prop :=
  a.id = b.id ∨ (a.tenantId = b.tenantId ∧ a.name = b.name ∧
    a.deactivatedAt = none ∧ b.deactivatedAt = none)

instance : DecidableRel SoftwareItem.Clash := fun _ _ => inferInstanceAs (Decidable (_ ∨ _))
instance : DecidableRel Link.Clash := fun _ _ => inferInstanceAs (Decidable (_ ∨ _))
instance : DecidableRel PluginLink.Clash := fun _ _ => inferInstanceAs (Decidable (_ ∨ _))
instance : DecidableRel PluginConfig.Clash := fun _ _ => inferInstanceAs (Decidable (_ ∨ _))

theorem Link.Clash.symm {a : Link} {b} : a.Clash b → b.Clash a := by
  rintro (h | ⟨hh, hi, hq, ha, hb⟩)
  · exact .inl h.symm
  · exact .inr ⟨hh.symm, hi.symm, hq.symm, hb, ha⟩

structure Store where
  items : Table (Apart SoftwareItem.Clash)
  links : Table (Apart Link.Clash)
  pluginLinks : Table (Apart PluginLink.Clash)
  configs : Table (Apart PluginConfig.Clash)
  updates : List Update.Row

/-- Links are known by their ids. -/
theorem Store.link_eq_of_id (s : Store) {a b} (ha : a ∈ s.links.rows) (hb : b ∈ s.links.rows)
    (h : a.id = b.id) : a = b :=
  s.links.valid.eq_of_clash (fun _ _ => Link.Clash.symm) ha hb (.inl h)

end Uptrakit.Discovery
