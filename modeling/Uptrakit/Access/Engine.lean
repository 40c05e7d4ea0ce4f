import Uptrakit.Access.Grants

/-!
# The decision engine

`AccessEngine` (`crates/ui/controller-core/src/access/mod.rs`): the load of a
principal's authority in a tenant, and the decision core.  The cache in front
of the load is left out: a context is always built from a fresh load.
-/

namespace Uptrakit.Access

open List

inductive DenyReason
  | noGrant | outOfScope | outsideSelector | unknownAction
  deriving DecidableEq

inductive Decision
  | allow
  | deny (reason : DenyReason)
  deriving DecidableEq

structure AccessEngine where
  registry : Option (Action → Bool)

/-- Per-request access context: the resolved grants of the principal and the
scope of its credential. -/
structure AccessContext where
  userId : Uuid
  tenantId : Uuid
  grants : List ResolvedGrant
  scope : Option (List ActionPattern)

namespace AccessEngine

/-- `load_authority`: the roles of the user in the tenant, then the grants of
the user and of those roles. -/
def loadAuthority (db : Db) (tenantId userId : Uuid) : GrantLoad :=
  let roleIds := (db.userRoles.filter fun a =>
    a.tenantId == tenantId && a.userId == userId).map (·.roleId)
  loadGrantsForPrincipal db tenantId userId roleIds

/-- `context`, on a cache miss. -/
def context (db : Db) (tenantId userId : Uuid) (scope : Option (List ActionPattern)) :
    AccessContext :=
  ⟨userId, tenantId, (loadAuthority db tenantId userId).grants, scope⟩

/-- Shared decision core; `target` is `none` for the coarse gate. -/
def decide (engine : AccessEngine) (ctx : AccessContext) (action : Action)
    (target : Option (TargetRef × Finset Uuid)) : Decision :=
  let isDynamic := action.resource.pluginType.isSome || action.resource.surfaceId.isSome
  if isDynamic && !(engine.registry.any (· action)) then .deny .unknownAction
  else
    let matchingGrants := ctx.grants.filter fun g => g.patterns.any (·.matchesAction action)
    if matchingGrants.isEmpty then .deny .noGrant
    else if ctx.scope.any fun scope => !scope.any (·.matchesAction action) then
      .deny .outOfScope
    else if target.any fun (target, hostTags) =>
        !matchingGrants.any (·.selector.covers target hostTags) then
      .deny .outsideSelector
    else .allow

def authorize (engine : AccessEngine) (ctx : AccessContext) (action : Action) : Decision :=
  engine.decide ctx action none

/-- A grant is part of the authority of `userId` in `tenantId` when it is stored,
and addressed either to the user there or everywhere, or to a role the user
holds there. -/
theorem mem_loadAuthority {db tenantId userId g} : g ∈ (loadAuthority db tenantId userId).grants ↔
      g ∈ (resolveRows db.accessGrants).1 ∧
        ((g.subject = .user userId ∧ (g.tenantId = some tenantId ∨ g.tenantId = none)) ∨
          ∃ a ∈ db.userRoles, g.subject = .role a.roleId ∧ a.tenantId = tenantId ∧
            a.userId = userId) := by
  have hco : ∀ row, resolveRow row = .ok g →
      (principalCondition tenantId userId ((db.userRoles.filter fun a =>
          a.tenantId == tenantId && a.userId == userId).map (·.roleId)) row = true ↔
        ((g.subject = .user userId ∧ (g.tenantId = some tenantId ∨ g.tenantId = none)) ∨
          ∃ a ∈ db.userRoles, g.subject = .role a.roleId ∧ a.tenantId = tenantId ∧
            a.userId = userId)) := by
    intro row hr
    obtain ⟨hs, hte⟩ := resolveRow_ok hr
    rw [hs, hte, principalCondition]
    cases row.subject with
    | user => simp
    | role =>
      simp only [contains_iff_mem, mem_map, mem_filter, Bool.and_eq_true,
        beq_iff_eq, reduceCtorEq, false_and, GrantSubject.role.injEq, false_or]
      constructor
      · rintro ⟨a, ⟨ha, ht, hu⟩, rfl⟩
        exact ⟨a, ha, rfl, ht, hu⟩
      · rintro ⟨a, ha, rfl, ht, hu⟩
        exact ⟨a, ⟨ha, ht, hu⟩, rfl⟩
  simp only [loadAuthority, loadGrantsForPrincipal, mem_resolveRows, mem_filter]
  constructor
  · rintro ⟨row, ⟨hm, hc⟩, hr⟩
    exact ⟨⟨row, hm, hr⟩, (hco row hr).mp hc⟩
  · rintro ⟨⟨row, hm, hr⟩, hc⟩
    exact ⟨row, ⟨hm, (hco row hr).mpr hc⟩, hr⟩

/-- With no credential scope, a built-in action is allowed exactly when some
grant of the context matches it. -/
theorem authorize_eq_allow_iff {engine : AccessEngine} {ctx : AccessContext} {action : Action}
    (hp : action.resource.pluginType = none) (hs : action.resource.surfaceId = none)
    (hsc : ctx.scope = none) :
    engine.authorize ctx action = .allow ↔
      ∃ g ∈ ctx.grants, g.patterns.any (·.matchesAction action) = true := by
  simp only [authorize, decide, hp, hs, hsc]
  split
  · rename_i h
    simp at h
  · simp

end AccessEngine

end Uptrakit.Access
