import Uptrakit.Discovery.Store

/-!
# Writing discovered items

How the controller stores what a plugin has discovered
(`crates/ui/web-api-queries/src/queries/autodiscovery/discovery_items.rs`): for each
item it finds or creates the software item, the link to the host and the plugin
roles.  The statements run outside a transaction, so a failure keeps what has been
written before.

All that this does to the links of hosts is to refresh or insert links that are
active and not missing (`guarantees_processPluginResult`).
-/

namespace Uptrakit.Discovery

open Concurrent Data Wire List
open Update (Uuid Time)

inductive DbErr
  | constraint
  | recordNotFound (message : String)
  deriving DecidableEq

inductive AutodiscoveryError
  | db (e : DbErr)

structure Env where
  tenantId : Uuid
  hostId : Uuid
  /-- The row that a query for one row returns: without an order, any that matches. -/
  one : {ρ : Type} → List ρ → Option ρ
  one_mem : ∀ {ρ : Type} {rows : List ρ} {r : ρ}, one rows = some r → r ∈ rows
  one_eq_none : ∀ {ρ : Type} {rows : List ρ}, one rows = none → rows = []
  /-- New identifiers. -/
  newId : Store → Uuid
  /-- The registry finds a masked secret in a plugin configuration. -/
  hasSentinel : PluginTypeId → String → Bool

abbrev DbQuery (α : Type) := Query AutodiscoveryError Store α

/-! ## Statements -/

/-- Execute a statement on a table; a statement that is refused changes nothing. -/
def attempt {τ : Type} (table : Store → τ) (put : Store → τ → Store)
    (statement : τ → Except Violation τ) : DbQuery (Except Violation Unit) :=
  .ofStep fun s => match statement (table s) with
    | .ok t => (.ok (.ok ()), put s t)
    | .error e => (.ok (.error e), s)

def attemptItems := attempt Store.items fun s t => { s with items := t }

def attemptLinks := attempt Store.links fun s t => { s with links := t }

def attemptPluginLinks := attempt Store.pluginLinks fun s t => { s with pluginLinks := t }

def attemptConfigs := attempt Store.configs fun s t => { s with configs := t }

def orFail (statement : DbQuery (Except Violation Unit)) : DbQuery Unit := do
  match ← statement with
  | .ok () => pure ()
  | .error _ => throw (.db .constraint)

/-! ## Items -/

structure DiscoveredItemInfo where
  packageIdentifier : String
  name : String
  installedVersion : String
  qualifier : Option String
  pluginPackageIdentifier : Option String
  installedDisplayVersion : Option String

def DiscoveredItemInfo.effectivePluginPkgId (item : DiscoveredItemInfo) : String :=
  item.pluginPackageIdentifier.getD item.packageIdentifier

def packageManagerIds : List PluginTypeId :=
  ["package-manager.apt", "package-manager.homebrew", "package-manager.dnf",
    "package-manager.npm", "package-manager.skills", "package-manager.mas",
    "package-manager.pacman", "package-manager.pkg", "package-manager.apk",
    "package-manager.snap", "package-manager.cargo", "package-manager.routeros"]

def isPackageManagerPlugin (pluginType : PluginTypeId) : Bool :=
  packageManagerIds.contains pluginType

/-- The write of discovery to an existing link.  The version of a link that has one is
preserved. -/
def applyDiscoveryLinkWrite (preserveVersion : Bool) (item : DiscoveredItemInfo) (now : Time)
    (source : PluginTypeId) (link : Link) : Link :=
  let link :=
    if preserveVersion then link
    else { link with
      installedVersion := some item.installedVersion
      installedVersionDetectedAt := some now
      installedDisplayVersion := item.installedDisplayVersion }
  { link with
    lastDiscoveredAt := some now
    discoverySource := some source
    missingSince := none
    deactivatedAt := none }

section

variable (env : Env) (now : Time) (source : PluginTypeId)

def findOrCreateDefaultPluginConfig (pluginType : PluginTypeId) (name : String) :
    DbQuery Uuid := do
  let named := fun c : PluginConfig => decide (c.tenantId = env.tenantId) &&
    decide (c.pluginType = pluginType) && decide (c.name = name) && c.deactivatedAt.isNone
  let s ← get
  match env.one (s.configs.rows.filter named) with
  | some config => pure config.id
  | none =>
    let id := env.newId s
    match ← attemptConfigs (·.insert [⟨id, env.tenantId, name, pluginType, none⟩]) with
    | .ok () => pure id
    | .error _ =>
      let s ← get
      match env.one (s.configs.rows.filter named) with
      | some config => pure config.id
      | none => throw (.db .constraint)

/-- The plugin role of an item: by its configuration, or for package managers by the
plugin type. -/
def PluginLink.isFor (pluginConfigId : Option Uuid) (pluginType : PluginTypeId)
    (packageIdentifier : String) (p : PluginLink) : Bool :=
  decide (p.packageIdentifier = packageIdentifier) && match pluginConfigId with
    | some config => decide (p.pluginConfigId = some config)
    | none => p.pluginConfigId.isNone && decide (p.pluginType = pluginType)

/-- The software item of a known plugin role.  A deactivated item is reactivated,
unless an active item has its name; then the active one takes its place. -/
def reactivateItem (linked : SoftwareItem) : DbQuery SoftwareItem := do
  if linked.deactivatedAt.isSome then
    let s ← get
    match env.one (s.items.rows.filter fun i => decide (i.tenantId = env.tenantId) &&
        decide (i.name = linked.name) && i.deactivatedAt.isNone) with
    | some active => pure active
    | none =>
      orFail (attemptItems (·.update
        ⟨fun i => decide (i.id = linked.id), fun i => { i with deactivatedAt := none }⟩))
      pure { linked with deactivatedAt := none }
  else pure linked

/-- Move the plugin roles of an item to another one.  Roles that the target has
already are dropped. -/
def reconcileStalePluginLinks (staleItemId targetItemId targetLinkId : Uuid) : DbQuery Unit := do
  let s ← get
  let stale := s.pluginLinks.rows.filter fun p =>
    decide (p.hostId = env.hostId) && decide (p.softwareItemId = staleItemId)
  let staleIds := stale.map (·.id)
  let targetRoles := (s.pluginLinks.rows.filter fun p =>
    decide (p.hostSoftwareItemId = targetLinkId) && !staleIds.contains p.id).map
      fun p => (p.role, p.ordinal)
  let conflicting := (stale.filter fun p => targetRoles.contains (p.role, p.ordinal)).map (·.id)
  let movable := (stale.filter fun p => !targetRoles.contains (p.role, p.ordinal)).map (·.id)
  orFail (attemptPluginLinks fun t =>
    Table.ofRows (t.rows.filter fun p => !conflicting.contains p.id))
  orFail (attemptPluginLinks (·.update ⟨fun p => movable.contains p.id,
    fun p => { p with softwareItemId := targetItemId, hostSoftwareItemId := targetLinkId }⟩))

/-- The item is known by a plugin role of the host: refresh its link, an active link
before a deactivated one. -/
def refreshKnown (item : DiscoveredItemInfo) (known : PluginLink) : DbQuery Unit := do
  let s ← get
  match env.one (s.items.rows.filter fun i => decide (i.id = known.softwareItemId)) with
  | none =>
    throw (.db (.recordNotFound ("software_item " ++ toString known.softwareItemId ++
      " referenced by host_software_item_plugin " ++ toString known.id ++ " not found")))
  | some linked =>
    let effective ← reactivateItem env linked
    let s ← get
    let he := s.links.rows.filter fun l =>
      decide (l.hostId = env.hostId) && decide (l.qualifier = item.qualifier)
    let target := (env.one (he.filter fun l =>
        decide (l.softwareItemId = effective.id) && l.deactivatedAt.isNone)).or
      (env.one (he.filter fun l => decide (l.softwareItemId = linked.id)))
    match target with
    | none => pure ()
    | some link =>
      let preserveVersion := link.deactivatedAt.isNone && link.installedVersion.isSome
      orFail (attemptLinks (·.update ⟨fun l => decide (l.id = link.id), fun l =>
        applyDiscoveryLinkWrite preserveVersion item now source
          { l with softwareItemId := effective.id }⟩))
      if effective.id ≠ linked.id then
        reconcileStalePluginLinks env linked.id effective.id link.id

/-- The software item of an item that the host does not track: one that another host
tracks, a deactivated one of its name, or a new one. -/
def findOrCreateItem (pluginConfigId : Option Uuid) (pluginType : PluginTypeId)
    (item : DiscoveredItemInfo) : DbQuery Uuid := do
  let s ← get
  let candidates := (s.pluginLinks.rows.filter
    (PluginLink.isFor pluginConfigId pluginType item.effectivePluginPkgId)).map (·.softwareItemId)
  let named := s.items.rows.filter fun i =>
    decide (i.tenantId = env.tenantId) && decide (i.name = item.name)
  match env.one (s.items.rows.filter fun i => candidates.contains i.id &&
      decide (i.tenantId = env.tenantId) && i.deactivatedAt.isNone) with
  | some existing => pure existing.id
  | none =>
    match env.one (named.filter (·.deactivatedAt.isSome)) with
    | some dormant =>
      orFail (attemptItems (·.update
        ⟨fun i => decide (i.id = dormant.id), fun i => { i with deactivatedAt := none }⟩))
      pure dormant.id
    | none =>
      let id := env.newId s
      match ← attemptItems (·.insert [⟨id, env.tenantId, item.name, none⟩]) with
      | .ok () => pure id
      | .error _ =>
        match env.one (named.filter (·.deactivatedAt.isNone)) with
        | some existing => pure existing.id
        | none =>
          throw (.db (.recordNotFound ("software_item with name '" ++ item.name ++
            "' not found after collision")))

/-- The link of the host to a software item: an existing one is refreshed, otherwise a
new one is inserted. -/
def findOrCreateLink (item : DiscoveredItemInfo) (softwareItemId : Uuid) :
    DbQuery (Option (Uuid × Uuid)) := do
  let s ← get
  let isLink := fun l : Link => decide (l.hostId = env.hostId) &&
    decide (l.softwareItemId = softwareItemId) && decide (l.qualifier = item.qualifier)
  let existing := s.links.rows.filter isLink
  match (existing.find? (·.deactivatedAt.isNone)).or existing.head? with
  | some link =>
    let preserveVersion := link.deactivatedAt.isNone && link.installedVersion.isSome
    orFail (attemptLinks (·.update ⟨fun l => decide (l.id = link.id),
      applyDiscoveryLinkWrite preserveVersion item now source⟩))
    pure (some (softwareItemId, link.id))
  | none =>
    let id := env.newId s
    let link : Link :=
      { id := id, hostId := env.hostId, softwareItemId := softwareItemId
        qualifier := item.qualifier, packageIdentifier := some item.effectivePluginPkgId
        installedVersion := some item.installedVersion, installedVersionDetectedAt := some now
        installedDisplayVersion := item.installedDisplayVersion, lastDiscoveredAt := some now
        discoverySource := some source, missingSince := none, deactivatedAt := none }
    match ← attemptLinks (·.insert [link]) with
    | .ok () => pure (some (softwareItemId, id))
    | .error _ =>
      let s ← get
      pure ((env.one (s.links.rows.filter isLink)).map fun l => (softwareItemId, l.id))

/-- Find or create the software item and the link of a discovered item.  The result is
the new link, if there is one that needs plugin roles. -/
def findOrCreateSoftwareItem (pluginConfigId : Option Uuid) (pluginType : PluginTypeId)
    (item : DiscoveredItemInfo) : DbQuery (Option (Uuid × Uuid)) := do
  let s ← get
  match env.one (s.pluginLinks.rows.filter fun p => decide (p.hostId = env.hostId) &&
      p.isFor pluginConfigId pluginType item.effectivePluginPkgId) with
  | some known =>
    refreshKnown env now source item known
    pure none
  | none =>
    let softwareItemId ← findOrCreateItem env pluginConfigId pluginType item
    findOrCreateLink env now source item softwareItemId

/-- Insert plugin roles; roles that exist are left alone. -/
def insertRoles (pluginConfigId : Option Uuid) (pluginType : PluginTypeId)
    (item : DiscoveredItemInfo) (softwareItemId linkId : Uuid) (roles : List PluginRole) :
    DbQuery Unit :=
  roles.forM fun role => do
    let s ← get
    let _ ← attemptPluginLinks (·.insert [⟨env.newId s, env.hostId, softwareItemId, linkId,
      pluginConfigId, pluginType, role, 0, item.effectivePluginPkgId⟩])

/-- The configuration of a target; package managers have none. -/
def targetConfig (target : DiscoveryTarget) : DbQuery (Option Uuid) :=
  if isPackageManagerPlugin target.pluginType then pure none
  else some <$> findOrCreateDefaultPluginConfig env target.pluginType target.pluginConfigName

def processTargetsDiscovery (item : DiscoveredItemInfo) (targets : List DiscoveryTarget) :
    DbQuery Unit :=
  targets.forM fun target => do
    if !isPackageManagerPlugin target.pluginType &&
        env.hasSentinel target.pluginType target.pluginConfig then
      pure ()
    else
      let configId ← targetConfig env target
      let item := { item with
        packageIdentifier := target.packageIdentifier.getD item.packageIdentifier }
      match ← findOrCreateSoftwareItem env now source configId target.pluginType item with
      | none => pure ()
      | some (softwareItemId, linkId) =>
        insertRoles env configId target.pluginType item softwareItemId linkId target.roles

def processOneDiscovery (pluginConfigId : Uuid) (pluginType : PluginTypeId)
    (item : DiscoveredItemInfo) : DbQuery Unit := do
  match ← findOrCreateSoftwareItem env now source (some pluginConfigId) pluginType item with
  | none => pure ()
  | some (softwareItemId, linkId) =>
    insertRoles env (some pluginConfigId) pluginType item softwareItemId linkId
      [.detectVersion, .fetchReleases, .executeUpdate]

end

def processPluginResult (env : Env) (now : Time) (ignoreSet : List String)
    (result : DiscoveryPluginResult) : DbQuery Unit :=
  result.discoveries.forM fun item => do
    if ignoreSet.contains item.name then
      pure ()
    else
      let info : DiscoveredItemInfo :=
        ⟨item.packageIdentifier, item.name, item.installedVersion, item.qualifier,
          item.pluginPackageIdentifier, item.installedDisplayVersion⟩
      if !item.targets.isEmpty then
        processTargetsDiscovery env now result.pluginType info item.targets
      else match result.pluginConfigId with
        | some config => processOneDiscovery env now result.pluginType config result.pluginType info
        | none => pure ()

/-! ## What becomes of the links -/

/-- The links are those from before, or active and not missing; the updates stay. -/
def Refreshes (s s' : Store) : Prop :=
  s'.updates = s.updates ∧ ∀ l ∈ s'.links.rows,
    l ∈ s.links.rows ∨ (l.missingSince = none ∧ l.deactivatedAt = none)

instance : Std.Refl Refreshes := ⟨fun _ => ⟨rfl, fun _ h => .inl h⟩⟩

instance : IsTrans Store Refreshes := by
  refine ⟨fun a b c hab hbc => ⟨hbc.1.trans hab.1, fun l hl => ?_⟩⟩
  obtain h | h := hbc.2 l hl
  · exact hab.2 l h
  · exact .inr h

theorem guarantees_attempt {τ : Type} {table : Store → τ} {put : Store → τ → Store}
    {statement : τ → Except Violation τ}
    (h : ∀ s t, statement (table s) = .ok t → Refreshes s (put s t)) :
    Guarantees Refreshes (attempt table put statement) := by
  intro s
  rw [attempt, Query.exec_ofStep]
  cases hs : statement (table s) with
  | ok t => exact h s t hs
  | error => exact refl_of Refreshes s

theorem guarantees_orFail {statement : DbQuery (Except Violation Unit)}
    (h : Guarantees Refreshes statement) : Guarantees Refreshes (orFail statement) := by
  refine h.bind fun r => ?_
  cases r with
  | ok => exact .pure _
  | error => exact .throw _

theorem guarantees_attemptItems {statement} : Guarantees Refreshes (attemptItems statement) :=
  guarantees_attempt fun _ _ _ => ⟨rfl, fun _ h => .inl h⟩

theorem guarantees_attemptPluginLinks {statement} :
    Guarantees Refreshes (attemptPluginLinks statement) :=
  guarantees_attempt fun _ _ _ => ⟨rfl, fun _ h => .inl h⟩

theorem guarantees_attemptConfigs {statement} : Guarantees Refreshes (attemptConfigs statement) :=
  guarantees_attempt fun _ _ _ => ⟨rfl, fun _ h => .inl h⟩

theorem guarantees_updateLinks {u : Concurrent.Update Link}
    (hs : ∀ l, (u.set l).missingSince = none ∧ (u.set l).deactivatedAt = none) :
    Guarantees Refreshes (attemptLinks (·.update u)) := by
  refine guarantees_attempt fun s t ht => ⟨rfl, fun l hl => ?_⟩
  rw [Table.rows_of_ofRows ht] at hl
  obtain ⟨k, hk, rfl⟩ := mem_map.mp hl
  unfold Concurrent.Update.row
  split
  · exact .inr (hs k)
  · exact .inl hk

section

variable {env : Env} {now : Time} {source : PluginTypeId}

variable {pluginType : PluginTypeId} {item : DiscoveredItemInfo} {config : Option Uuid}
  {softwareItemId : Uuid}

theorem guarantees_findOrCreateDefaultPluginConfig {name} :
    Guarantees Refreshes (findOrCreateDefaultPluginConfig env pluginType name) := by
  refine Guarantees.get.bind fun s => ?_
  split
  · exact .pure _
  · refine guarantees_attemptConfigs.bind fun r => ?_
    cases r with
    | ok => exact .pure _
    | error =>
      refine Guarantees.get.bind fun s => ?_
      split
      · exact .pure _
      · exact .throw _

theorem guarantees_reactivateItem {linked} : Guarantees Refreshes (reactivateItem env linked) := by
  unfold reactivateItem
  split
  · refine Guarantees.get.bind fun s => ?_
    split
    · exact .pure _
    · exact (guarantees_orFail guarantees_attemptItems).bind fun _ => .pure _
  · exact .pure _

theorem guarantees_reconcileStalePluginLinks {stale item link} :
    Guarantees Refreshes (reconcileStalePluginLinks env stale item link) := by
  refine Guarantees.get.bind fun s => ?_
  exact (guarantees_orFail guarantees_attemptPluginLinks).bind fun _ =>
    guarantees_orFail guarantees_attemptPluginLinks

theorem guarantees_refreshKnown {known} :
    Guarantees Refreshes (refreshKnown env now source item known) := by
  refine Guarantees.get.bind fun s => ?_
  split
  · exact .throw _
  · refine guarantees_reactivateItem.bind fun effective => ?_
    refine Guarantees.get.bind fun s => ?_
    dsimp only
    split
    · exact .pure _
    · refine (guarantees_orFail (guarantees_updateLinks fun l => ⟨rfl, rfl⟩)).bind fun _ => ?_
      split
      · exact guarantees_reconcileStalePluginLinks
      · exact .pure _

theorem guarantees_findOrCreateItem :
    Guarantees Refreshes (findOrCreateItem env config pluginType item) := by
  refine Guarantees.get.bind fun s => ?_
  dsimp only
  split
  · exact .pure _
  · split
    · exact (guarantees_orFail guarantees_attemptItems).bind fun _ => .pure _
    · refine guarantees_attemptItems.bind fun r => ?_
      cases r with
      | ok => exact .pure _
      | error =>
        dsimp only
        split
        · exact .pure _
        · exact .throw _

theorem guarantees_findOrCreateLink :
    Guarantees Refreshes (findOrCreateLink env now source item softwareItemId) := by
  refine Guarantees.get.bind fun s => ?_
  dsimp only
  split
  · exact (guarantees_orFail (guarantees_updateLinks fun l => ⟨rfl, rfl⟩)).bind fun _ => .pure _
  · refine Guarantees.bind (guarantees_attempt fun s t ht => ?_) fun r => ?_
    · refine ⟨rfl, fun l hl => ?_⟩
      rw [Table.rows_of_ofRows ht] at hl
      obtain hl | hl := mem_append.mp hl
      · exact .inl hl
      · obtain rfl := mem_singleton.mp hl
        exact .inr ⟨rfl, rfl⟩
    cases r with
    | ok => exact .pure _
    | error => exact Guarantees.get.bind fun _ => .pure _

theorem guarantees_findOrCreateSoftwareItem :
    Guarantees Refreshes (findOrCreateSoftwareItem env now source config pluginType item) := by
  refine Guarantees.get.bind fun s => ?_
  split
  · exact guarantees_refreshKnown.bind fun _ => .pure _
  · exact guarantees_findOrCreateItem.bind fun _ => guarantees_findOrCreateLink

theorem guarantees_insertRoles {linkId roles} :
    Guarantees Refreshes (insertRoles env config pluginType item softwareItemId linkId roles) :=
  .forM fun _ _ => Guarantees.get.bind fun _ => guarantees_attemptPluginLinks.bind fun _ => .pure _

theorem guarantees_targetConfig {target} : Guarantees Refreshes (targetConfig env target) := by
  unfold targetConfig
  split
  · exact .pure _
  · exact guarantees_findOrCreateDefaultPluginConfig.bind fun _ => .pure _

theorem guarantees_processTargetsDiscovery {targets} :
    Guarantees Refreshes (processTargetsDiscovery env now source item targets) := by
  refine .forM fun target _ => ?_
  split
  · exact .pure _
  · refine guarantees_targetConfig.bind fun config => ?_
    refine guarantees_findOrCreateSoftwareItem.bind fun created => ?_
    cases created with
    | none => exact .pure _
    | some => exact guarantees_insertRoles

theorem guarantees_processOneDiscovery {config} :
    Guarantees Refreshes (processOneDiscovery env now source config pluginType item) := by
  refine guarantees_findOrCreateSoftwareItem.bind fun created => ?_
  cases created with
  | none => exact .pure _
  | some => exact guarantees_insertRoles

/-- Storing the discoveries of a plugin refreshes links and inserts new ones. -/
theorem guarantees_processPluginResult {ignoreSet result} :
    Guarantees Refreshes (processPluginResult env now ignoreSet result) := by
  refine .forM fun item _ => ?_
  split
  · exact .pure _
  · split
    · exact guarantees_processTargetsDiscovery
    · split
      · exact guarantees_processOneDiscovery
      · exact .pure _

end

end Uptrakit.Discovery
