import Uptrakit.Access.Selector
import Uptrakit.Data.Except

/-!
# Grant rows

The query module of the `access_grants` table
(`crates/shared/db/src/access_grants.rs`): the validation chain that every write
passes, the typing of stored rows, and the load of the grants of a principal.
The module ends with what an accepted write is known to satisfy: the planes of
its patterns are not mixed, its tenant column follows the single encoding of
its subject, and its selector is `all`.
-/

namespace Uptrakit.Access

open Text Data List

/-! ## Tables -/

inductive GrantSubject
  | user (id : Uuid)
  | role (id : Uuid)
  deriving DecidableEq

/-- A row of `access_grants`.  The JSON columns are given by what `serde`
decodes from them: `none` is a column that does not decode. -/
structure GrantRow where
  id : Uuid
  tenantId : Option Uuid
  subject : GrantSubject
  patterns : Option (List ActionPattern)
  selector : Option Selector
  description : Option String
  deriving DecidableEq

/-- A row of `host_tags`, `hosts` or `software_items`. -/
structure TenantRow where
  id : Uuid
  tenantId : Uuid
  deactivatedAt : Option Nat
  deriving DecidableEq

/-- A row of `host_software_items`. -/
structure HostSoftwareItemRow where
  id : Uuid
  hostId : Uuid
  deactivatedAt : Option Nat
  deriving DecidableEq

/-- A row of `roles`; global roles have no tenant. -/
structure RoleRow where
  id : Uuid
  tenantId : Option Uuid
  deriving DecidableEq

/-- A row of `users`. -/
structure UserRow where
  id : Uuid
  isActive : Bool
  deriving DecidableEq

/-- A row of `user_roles`: the role is assigned to the user in the tenant. -/
structure Assignment where
  tenantId : Uuid
  userId : Uuid
  roleId : Uuid
  deriving DecidableEq

structure Db where
  tenants : List Uuid
  users : List UserRow
  roles : List RoleRow
  userRoles : List Assignment
  hostTags : List TenantRow
  hosts : List TenantRow
  softwareItems : List TenantRow
  hostSoftwareItems : List HostSoftwareItemRow
  accessGrants : List GrantRow

/-! ## Validation of a write -/

inductive Plane
  | system | tenant
  deriving DecidableEq

inductive AccessGrantError
  | patterns (e : PatternSetError)
  | planeMixing
  | tenantEncoding (reason : String)
  | selectorPhaseGate
  | selector (e : SelectorValidationError)
  | selectorNotSupported (e : SelectorLevelError)
  | selectorReferentsMissing (axis : SelectorAxis) (missing : List Uuid)
  | selectorOnGlobalRole
  | descriptionTooLong (max : Nat)
  | sentinelMissing
  deriving DecidableEq

def patternPlane (pattern : ActionPattern) : Plane :=
  match pattern.resource with
  | .any => .tenant
  | .exact s => if startsWith s "system." then .system else .tenant
  | .subtree stem =>
    if stem == "system" || startsWith stem "system." then .system else .tenant

/-- The loop of `grant_plane`, with the plane seen so far. -/
def grantPlaneFrom : Option Plane → List ActionPattern → Except AccessGrantError Plane
  | plane, [] => .ok (plane.getD .tenant)
  | none, pattern :: rest => grantPlaneFrom (some (patternPlane pattern)) rest
  | some prev, pattern :: rest =>
    if prev ≠ patternPlane pattern then .error .planeMixing
    else grantPlaneFrom (some prev) rest

/-- Plane of a whole grant; a mix is an error, the empty list is tenant-plane. -/
def grantPlane (patterns : List ActionPattern) : Except AccessGrantError Plane :=
  grantPlaneFrom none patterns

/-- Rule 2: the single tenant encoding of each subject type. -/
def validateEncoding : Plane → GrantSubject → Option Uuid → Except AccessGrantError Unit
  | .system, _, some _ => .error (.tenantEncoding "system-plane grant requires tenant_id NULL")
  | _, .role _, some _ => .error (.tenantEncoding "role-subject grant requires tenant_id NULL")
  | .tenant, .user _, none =>
    .error (.tenantEncoding "user-subject tenant-plane grant requires a tenant_id")
  | _, _, _ => .ok ()

variable (db : Db) (subject : GrantSubject) (tenantId : Option Uuid)

/-- The tenant in which rule 4 resolves the ids of a selector. -/
def referentTenant : Except AccessGrantError Uuid :=
  match subject with
  | .user _ =>
    match tenantId with
    | some tenant => .ok tenant
    | none => .error (.tenantEncoding "non-All selector on a tenant-less user grant")
  | .role roleId =>
    match db.roles.find? (·.id == roleId) with
    | none => .error (.tenantEncoding "role-subject grant references an unknown role")
    | some role =>
      match role.tenantId with
      | some tenant => .ok tenant
      | none => .error .selectorOnGlobalRole

/-- The ids of live rows of `table` in the tenant, among `ids`. -/
def liveIds (table : List TenantRow) (tenantId : Uuid) (ids : List Uuid) : List Uuid :=
  (table.filter fun r =>
    r.tenantId == tenantId && ids.contains r.id && r.deactivatedAt.isNone).map (·.id)

/-- The ids among `ids` of live links under a live host of the tenant. -/
def liveItemIds (tenantId : Uuid) (ids : List Uuid) : List Uuid :=
  (db.hostSoftwareItems.filter fun r =>
    (db.hosts.any fun h =>
      h.id == r.hostId && h.tenantId == tenantId && h.deactivatedAt.isNone) &&
      ids.contains r.id && r.deactivatedAt.isNone).map (·.id)

/-- Every id of `ids` was found, or the missing ones are reported. -/
def validateFound (axis : SelectorAxis) (ids found : List Uuid) : Except AccessGrantError Unit :=
  if found.length ≠ ids.length then
    .error (.selectorReferentsMissing axis (ids.filter fun id => !found.contains id))
  else .ok ()

/-- Rule 4: every id of the selector names a live row of the tenant. -/
def validateSelectorReferents (tenantId : Uuid) : Selector → Except AccessGrantError Unit
  | .all => .ok ()
  | .tags ids => validateFound .tags ids (liveIds db.hostTags tenantId ids)
  | .hosts ids => validateFound .hosts ids (liveIds db.hosts tenantId ids)
  | .software ids => validateFound .software ids (liveIds db.softwareItems tenantId ids)
  | .items ids => validateFound .items ids (liveItemIds db tenantId ids)

/-- Rule 4 and the phase gate: a selector other than `all` is checked, and then
refused all the same. -/
def validateNarrowing (selector : Selector) : Except AccessGrantError Unit :=
  if selector ≠ .all then do
    let tenant ← referentTenant db subject tenantId
    validateSelectorReferents db tenant selector
    .error .selectorPhaseGate
  else .ok ()

def validateDescription (description : Option String) : Except AccessGrantError Unit :=
  match description with
  | some d =>
    if d.length > Bounds.maxGrantDescriptionLen then
      .error (.descriptionTooLong Bounds.maxGrantDescriptionLen)
    else .ok ()
  | none => .ok ()

/-- The validation chain of a write, in the order of the source. -/
def validateWrite (patterns : List ActionPattern) (selector : Selector)
    (description : Option String) : Except AccessGrantError Unit := do
  (validatePatterns patterns).mapError .patterns
  let plane ← grantPlane patterns
  validateEncoding plane subject tenantId
  selector.validate.mapError .selector
  (validateSelectorLevel patterns selector).mapError .selectorNotSupported
  validateNarrowing db subject tenantId selector
  validateDescription description

/-! ## Stored rows -/

structure ResolvedGrant where
  id : Uuid
  tenantId : Option Uuid
  subject : GrantSubject
  patterns : List ActionPattern
  selector : Selector
  description : Option String
  deriving DecidableEq

/-- `resolve_row`: the typed row, or which column does not decode. -/
def resolveRow (row : GrantRow) : Except String ResolvedGrant :=
  match row.patterns with
  | none => .error "unparseable patterns JSON"
  | some patterns =>
    match row.selector with
    | none => .error "unparseable selector JSON"
    | some selector =>
      .ok ⟨row.id, row.tenantId, row.subject, patterns, selector, row.description⟩

/-- The loop shared by the batch loads: corrupt rows are dropped and counted. -/
def resolveRows : List GrantRow → List ResolvedGrant × Nat
  | [] => ([], 0)
  | row :: rows =>
    match resolveRow row with
    | .ok grant => (grant :: (resolveRows rows).1, (resolveRows rows).2)
    | .error _ => ((resolveRows rows).1, (resolveRows rows).2 + 1)

structure GrantLoad where
  grants : List ResolvedGrant
  corruptSkipped : Nat

/-- The condition of the single query of `load_grants_for_principal`. -/
def principalCondition (tenantId userId : Uuid) (roleIds : List Uuid) (row : GrantRow) : Bool :=
  match row.subject with
  | .user id => id == userId && (row.tenantId == some tenantId || row.tenantId == none)
  | .role id => roleIds.contains id

def loadGrantsForPrincipal (tenantId userId : Uuid) (roleIds : List Uuid) : GrantLoad :=
  let (grants, corruptSkipped) :=
    resolveRows (db.accessGrants.filter (principalCondition tenantId userId roleIds))
  ⟨grants, corruptSkipped⟩

variable {g : ResolvedGrant} {plane : Plane} {patterns : List ActionPattern}

theorem mem_resolveRows {rows} :
    g ∈ (resolveRows rows).1 ↔ ∃ row ∈ rows, resolveRow row = .ok g := by
  induction rows with
  | nil => simp [resolveRows]
  | cons row _ ih =>
    rw [resolveRows, exists_mem_cons_iff]
    cases h : resolveRow row with
    | ok => simp [ih, eq_comm]
    | error => simp [ih]

theorem resolveRow_ok {row} (h : resolveRow row = .ok g) :
    g.subject = row.subject ∧ g.tenantId = row.tenantId := by
  unfold resolveRow at h
  split at h
  · cases h
  · split at h
    · cases h
    · cases h
      exact ⟨rfl, rfl⟩

/-! ## What an accepted write satisfies -/

/-- The plane of a pattern is the plane of every resource it matches. -/
theorem patternPlane_eq_system_iff {p : ActionPattern} {r} (h : p.resourceMatches r = true) :
    patternPlane p = .system ↔ r.isSystem = true := by
  obtain ⟨resource, _⟩ := p
  cases resource with
  | any =>
    have hr : r.isSystem = false := by simpa [ActionPattern.resourceMatches] using h
    simp [patternPlane, hr]
  | exact s =>
    have hs : r.asStr = s := by simpa [ActionPattern.resourceMatches] using h
    simp [patternPlane, Resource.isSystem, hs]
  | subtree stem =>
    obtain ⟨_, -, hr⟩ := ActionPattern.subtree_matches_iff.mp h
    have hsy : r.isSystem = true ↔ stem = "system" ∨ startsWith stem "system." = true := by
      rw [Resource.isSystem, startsWith, startsWith, isPrefixOf_iff_prefix,
        isPrefixOf_iff_prefix, hr, ← String.toList_inj]
      exact segment_prefix_iff (w := "system".toList) (by decide)
    rw [hsy]
    by_cases hst : stem = "system" <;> simp [patternPlane, hst]

theorem grantPlaneFrom_some_ok {prev} (h : grantPlaneFrom (some prev) patterns = .ok plane) :
    prev = plane ∧ ∀ p ∈ patterns, patternPlane p = plane := by
  induction patterns with
  | nil =>
    cases h
    simp
  | cons _ _ ih =>
    rw [grantPlaneFrom] at h
    split at h
    · cases h
    · rename_i hp
      obtain ⟨hpr, hr⟩ := ih h
      rw [not_not] at hp
      exact ⟨hpr, forall_mem_cons.mpr ⟨hp ▸ hpr, hr⟩⟩

/-- A pattern list that `grant_plane` classifies has all its patterns on that
plane. -/
theorem grantPlane_ok (h : grantPlane patterns = .ok plane) :
    ∀ p ∈ patterns, patternPlane p = plane := by
  cases patterns with
  | nil => simp
  | cons p =>
    obtain ⟨hp, hr⟩ : patternPlane p = plane ∧ _ := grantPlaneFrom_some_ok h
    exact forall_mem_cons.mpr ⟨hp, hr⟩

/-- The planes never leak: no pattern of a grant on the tenant plane matches an action of the system
plane, and no pattern of a grant on the system plane matches another action. -/
theorem planes_never_leak (h : grantPlane patterns = .ok plane) :
    (plane = .tenant → ∀ p ∈ patterns, ∀ a : Action, p.matchesAction a = true →
        a.resource.isSystem = false) ∧
      (plane = .system → ∀ p ∈ patterns, ∀ a : Action, p.matchesAction a = true →
        a.resource.isSystem = true) := by
  have hi (p) (hp : p ∈ patterns) (a : Action) (ha : p.matchesAction a = true) :
      plane = .system ↔ a.resource.isSystem = true := by
    rw [← grantPlane_ok h p hp]
    exact patternPlane_eq_system_iff ((Bool.and_eq_true _ _).mp ha).1
  constructor
  · rintro rfl p hp a ha
    simpa using hi p hp a ha
  · rintro rfl p hp a ha
    exact (hi p hp a ha).mp rfl

theorem planes_never_leak_system :
    grantPlane [⟨.subtree "system", .any⟩] = .ok .system ∧
      ∀ p ∈ [(⟨.subtree "system", .any⟩ : ActionPattern)], ∀ a : Action,
        p.matchesAction a = true → a.resource.isSystem = true :=
  ⟨by decide, (planes_never_leak (by decide)).2 rfl⟩

/-- The rules of the validation chain that later reasoning uses: plane purity,
the tenant encoding, and the phase gate. -/
structure WellEncoded (g : ResolvedGrant) (plane : Plane) : Prop where
  pure : ∀ p ∈ g.patterns, patternPlane p = plane
  encoding : validateEncoding plane g.subject g.tenantId = .ok ()
  selector : g.selector = .all

/-- A grant is accepted when the validation chain passes on its own fields, on
the tables as they stood when it was written. -/
def ResolvedGrant.Accepted (g : ResolvedGrant) : Prop :=
  ∃ db, validateWrite db g.subject g.tenantId g.patterns g.selector g.description = .ok ()

theorem ResolvedGrant.Accepted.wellEncoded (h : g.Accepted) : ∃ plane, WellEncoded g plane := by
  obtain ⟨_, h⟩ := h
  obtain ⟨-, -, h⟩ := bind_eq_ok.mp h
  obtain ⟨plane, hp, h⟩ := bind_eq_ok.mp h
  obtain ⟨_, he, h⟩ := bind_eq_ok.mp h
  obtain ⟨-, -, h⟩ := bind_eq_ok.mp h
  obtain ⟨-, -, h⟩ := bind_eq_ok.mp h
  obtain ⟨_, hn, -⟩ := bind_eq_ok.mp h
  refine ⟨plane, grantPlane_ok hp, he, ?_⟩
  by_contra hne
  rw [validateNarrowing, if_pos hne] at hn
  obtain ⟨_, -, h⟩ := bind_eq_ok.mp hn
  obtain ⟨-, -, h⟩ := bind_eq_ok.mp h
  cases h

end Uptrakit.Access
