import Uptrakit.Access.Engine
import Uptrakit.Data.MultiMap

/-!
# The lockout guard

`check_lockout` and its parts (`crates/shared/db/src/access_grants.rs`).  The
guard compares the covering holders before and after a simulated mutation, for
every tenant and for the system plane.

Two results are proved about it.  Over any run of adding steps and permitted
mutations no tenant, and not the system plane, loses its last holder
(`no_lockout`).  And the holders that the guard counts are exactly the users
that the decision engine would admit (`coveringHolders_agrees`), although the
two resolve the same rows independently.
-/

namespace Uptrakit.Access

open Data AccessEngine List

/-- What the guard loads: the typed grants, the role assignments and the active
users. -/
structure AuthorityState where
  grants : List ResolvedGrant
  assignments : List Assignment
  activeUsers : Finset Uuid

/-- The three flat loads of `check_lockout`; corrupt rows are skipped. -/
def Db.authority (db : Db) : AuthorityState where
  grants := (resolveRows db.accessGrants).1
  assignments := db.userRoles
  activeUsers := ((db.users.filter (·.isActive)).map (·.id)).toFinset

/-- The two accumulators of `covering_holders`: the holders of `access:manage`
per tenant, and the global holders of `system.access:manage`. -/
abbrev Holders := MultiMap Uuid Uuid × Finset Uuid

def coverAssignment (activeUsers : Finset Uuid) (coversTenant coversSystem : Bool)
    (acc : Holders) (a : Assignment) : Holders :=
  if a.userId ∉ activeUsers then acc
  else
    (if coversTenant then acc.1.insertAt a.tenantId a.userId else acc.1,
      if coversSystem then insert a.userId acc.2 else acc.2)

def ResolvedGrant.coversAction (grant : ResolvedGrant) (action : Action) : Bool :=
  grant.patterns.any (·.matchesAction action)

def coverGrant (assignments : List Assignment) (activeUsers : Finset Uuid) (acc : Holders)
    (grant : ResolvedGrant) : Holders :=
  if grant.selector ≠ .all then acc
  else
    let coversTenant := grant.coversAction Actions.accessManage
    let coversSystem := grant.coversAction Actions.systemAccessManage
    if !coversTenant && !coversSystem then acc
    else
      match grant.subject with
      | .user userId =>
        if userId ∉ activeUsers then acc
        else
          (match grant.tenantId with
            | some tenantId =>
              if coversTenant then acc.1.insertAt tenantId userId else acc.1
            | none => acc.1,
            if coversSystem then insert userId acc.2 else acc.2)
      | .role roleId =>
        (assignments.filter (·.roleId == roleId)).foldl
          (coverAssignment activeUsers coversTenant coversSystem) acc

def coveringHolders (s : AuthorityState) : Holders :=
  s.grants.foldl (coverGrant s.assignments s.activeUsers) (∅, ∅)

inductive GuardedMutation
  | deleteGrant (grantId : Uuid)
  | updateGrant (grantId : Uuid) (newPatterns : List ActionPattern) (newSelector : Selector)
  | deleteRole (roleId : Uuid)
  | setUserRoles (tenantId userId : Uuid) (newRoleIds : List Uuid)
  | deactivateUser (userId : Uuid)

def applyMutation (mutation : GuardedMutation) (s : AuthorityState) : AuthorityState :=
  match mutation with
  | .deleteGrant grantId => { s with grants := s.grants.filter (·.id != grantId) }
  | .updateGrant grantId newPatterns newSelector =>
    { s with
      grants := s.grants.map fun g =>
        if g.id = grantId then { g with patterns := newPatterns, selector := newSelector }
        else g }
  | .deleteRole roleId =>
    { s with
      grants := s.grants.filter (·.subject != .role roleId)
      assignments := s.assignments.filter (·.roleId != roleId) }
  | .setUserRoles tenantId userId newRoleIds =>
    { s with
      assignments :=
        (s.assignments.filter fun a => !(a.tenantId == tenantId && a.userId == userId)) ++
          newRoleIds.map fun roleId => ⟨tenantId, userId, roleId⟩ }
  | .deactivateUser userId => { s with activeUsers := s.activeUsers.erase userId }

inductive LockoutVerdict
  | permitted | tenantLockout | systemLockout
  deriving DecidableEq

def lockoutVerdict (s : AuthorityState) (mutation : GuardedMutation) : LockoutVerdict :=
  let pre := coveringHolders s
  let post := coveringHolders (applyMutation mutation s)
  if pre.2.Nonempty ∧ post.2 = ∅ then .systemLockout
  else if pre.1.keys.any fun tenantId => post.1.get tenantId = ∅ then .tenantLockout
  else .permitted

/-- Lock the sentinel row; a missing row is a hard error. -/
def lockSentinel (db : Db) (sentinelTenantId : Uuid) : Except AccessGrantError Unit :=
  if db.tenants.contains sentinelTenantId then .ok () else .error .sentinelMissing

def checkLockout (db : Db) (sentinelTenantId : Uuid) (mutation : GuardedMutation) :
    Except AccessGrantError LockoutVerdict := do
  lockSentinel db sentinelTenantId
  .ok (lockoutVerdict db.authority mutation)

/-! ## Who is a holder

The accumulators of `covering_holders`, described without the loops.  A scope is
a tenant (`some t`) or the system plane (`none`), so that both accumulators
obey one set of lemmas. -/

def Holders.holding (h : Holders) : Option Uuid → Finset Uuid
  | some t => h.1.get t
  | none => h.2

def managingAction : Option Uuid → Action
  | some _ => Actions.accessManage
  | none => Actions.systemAccessManage

/-- The grant confers the managing action of the scope, at selector `all`, on
`u`: directly, or through a role assigned to `u`. -/
def Confers (assignments : List Assignment) (scope : Option Uuid) (u : Uuid)
    (g : ResolvedGrant) : Prop :=
  g.selector = .all ∧ g.coversAction (managingAction scope) = true ∧
    ((g.subject = .user u ∧ ∀ t ∈ scope, g.tenantId = some t) ∨
      ∃ a ∈ assignments, g.subject = .role a.roleId ∧ a.userId = u ∧ ∀ t ∈ scope, a.tenantId = t)

/-- An active user on whom some grant confers the managing action. -/
def Holder (s : AuthorityState) (scope : Option Uuid) (u : Uuid) : Prop :=
  u ∈ s.activeUsers ∧ ∃ g ∈ s.grants, Confers s.assignments scope u g

section Loops

variable {activeUsers : Finset Uuid} {assignments : List Assignment}
variable {scope : Option Uuid} {u : Uuid}

theorem mem_coverAssignment (ct cs acc a) :
    u ∈ (coverAssignment activeUsers ct cs acc a).holding scope ↔
      u ∈ acc.holding scope ∨
        (u ∈ activeUsers ∧ (scope.elim cs fun _ => ct) = true ∧ a.userId = u ∧
          ∀ t ∈ scope, a.tenantId = t) := by
  unfold coverAssignment
  split
  · grind
  · cases scope with
    | none => grind [Holders.holding]
    | some =>
      simp only [Option.mem_some_iff]
      grind [Holders.holding, MultiMap.mem_get_insertAt]

theorem coversAction_managingAction (g : ResolvedGrant) :
    g.coversAction (managingAction scope) =
      scope.elim (g.coversAction Actions.systemAccessManage)
        fun _ => g.coversAction Actions.accessManage := by
  cases scope <;> rfl

theorem mem_coverGrant (acc g) : u ∈ (coverGrant assignments activeUsers acc g).holding scope ↔
      u ∈ acc.holding scope ∨ (u ∈ activeUsers ∧ Confers assignments scope u g) := by
  unfold coverGrant Confers
  rw [coversAction_managingAction]
  by_cases hs : g.selector = .all
  swap
  · simp [hs]
  simp only [hs, ne_eq, not_true_eq_false, if_false, true_and]
  split
  · -- Neither action is covered, so the grant confers nothing.
    cases scope <;> simp_all
  · cases hsu : g.subject with
    | user =>
      cases scope with
      | none => cases g.tenantId <;> grind [Holders.holding]
      | some =>
        simp only [Option.mem_some_iff]
        cases g.tenantId <;> grind [Holders.holding, MultiMap.mem_get_insertAt]
    | role =>
      rw [foldl_iff_or_exists (P := (u ∈ Holders.holding · scope)) (mem_coverAssignment _ _)]
      simp only [mem_filter, beq_iff_eq]
      refine or_congr_right ?_
      simp only [reduceCtorEq, false_and, false_or, GrantSubject.role.injEq]
      constructor
      · rintro ⟨a, ⟨ha, hr⟩, hu, hc, hau, hat⟩
        exact ⟨hu, hc, a, ha, hr.symm, hau, hat⟩
      · rintro ⟨hu, hc, a, ha, hr, hau, hat⟩
        exact ⟨a, ⟨ha, hr.symm⟩, hu, hc, hau, hat⟩

end Loops

variable {s s' : AuthorityState} {scope : Option Uuid} {u : Uuid} {g : ResolvedGrant}

/-- The loops of `covering_holders` collect exactly the holders. -/
theorem mem_coveringHolders : u ∈ (coveringHolders s).holding scope ↔ Holder s scope u := by
  have h := foldl_iff_or_exists (f := coverGrant s.assignments s.activeUsers)
    (P := (u ∈ Holders.holding · scope)) mem_coverGrant s.grants (∅, ∅)
  have he : u ∉ Holders.holding (∅, ∅) scope := by cases scope <;> simp [Holders.holding]
  rw [coveringHolders, h]
  constructor
  · rintro (hm | ⟨g, hg, hu, hc⟩)
    · exact absurd hm he
    · exact ⟨hu, g, hg, hc⟩
  · rintro ⟨hu, g, hg, hc⟩
    exact .inr ⟨g, hg, hu, hc⟩

/-! ## No lockout over a run -/

/-- One step of the authority state: an adding step, or a mutation that the
guard permitted on tables that load as the current state. -/
inductive AuthorityState.Step : AuthorityState → AuthorityState → Prop
  | insertGrant (s : AuthorityState) (g : ResolvedGrant) :
      Step s { s with grants := s.grants ++ [g] }
  | addAssignment (s a) : Step s { s with assignments := s.assignments ++ [a] }
  | activateUser (s : AuthorityState) (u : Uuid) :
      Step s { s with activeUsers := insert u s.activeUsers }
  | guarded (db sentinelTenantId mutation)
      (permitted : checkLockout db sentinelTenantId mutation = .ok .permitted) :
      Step db.authority (applyMutation mutation db.authority)

/-- Every scope that has a holder in `s` has one in `s'`. -/
def KeepsHolders (s s' : AuthorityState) : Prop :=
  ∀ scope, ((coveringHolders s).holding scope).Nonempty →
    ((coveringHolders s').holding scope).Nonempty

theorem KeepsHolders.refl (s) : KeepsHolders s s := fun _ h => h

instance : IsTrans AuthorityState KeepsHolders := ⟨fun _ _ _ h h' scope hs => h' scope (h scope hs)⟩

/-- Authority only grows with the grants, the assignments and the active users. -/
theorem Holder.mono (hgr : s.grants ⊆ s'.grants) (has : s.assignments ⊆ s'.assignments)
    (hac : s.activeUsers ⊆ s'.activeUsers) (h : Holder s scope u) : Holder s' scope u := by
  obtain ⟨hu, g, hg, hs, hc, hsu⟩ := h
  refine ⟨hac hu, g, hgr hg, hs, hc, ?_⟩
  rcases hsu with hus | ⟨a, ha, hr⟩
  · exact .inl hus
  · exact .inr ⟨a, has ha, hr⟩

theorem KeepsHolders.of_subset (hg : s.grants ⊆ s'.grants)
    (ha : s.assignments ⊆ s'.assignments) (hac : s.activeUsers ⊆ s'.activeUsers) :
    KeepsHolders s s' := by
  rintro scope ⟨u, hu⟩
  refine ⟨u, mem_coveringHolders.mpr ?_⟩
  exact (mem_coveringHolders.mp hu).mono hg ha hac

/-- A permitted mutation leaves a holder in every scope that had one. -/
theorem keepsHolders_of_permitted {mutation} (h : lockoutVerdict s mutation = .permitted) :
    KeepsHolders s (applyMutation mutation s) := by
  rintro scope ⟨u, hu⟩
  rw [lockoutVerdict] at h
  split at h
  · cases h
  · rename_i hs
    split at h
    · cases h
    · rename_i ht
      cases scope with
      | none =>
        have hp := not_and.mp hs ⟨u, hu⟩
        exact Finset.nonempty_iff_ne_empty.mpr hp
      | some t =>
        have hk : t ∈ (coveringHolders s).1.keys := MultiMap.mem_keys_of_mem_get hu
        simp only [any_eq_true, decide_eq_true_eq, not_exists, not_and] at ht
        exact Finset.nonempty_iff_ne_empty.mpr (ht t hk)

theorem AuthorityState.Step.keepsHolders (h : s.Step s') : KeepsHolders s s' := by
  cases h with
  | insertGrant => exact .of_subset (subset_append_left ..) (List.Subset.refl _) subset_rfl
  | addAssignment =>
    exact .of_subset (List.Subset.refl _) (subset_append_left ..) subset_rfl
  | activateUser =>
    exact .of_subset (List.Subset.refl _) (List.Subset.refl _) (Finset.subset_insert _ _)
  | guarded _ _ _ permitted =>
    obtain ⟨_, -, hv⟩ := bind_eq_ok.mp permitted
    exact keepsHolders_of_permitted (Except.ok.inj hv)

theorem keepsHolders_of_isChain {run : List AuthorityState} (hr : run.IsChain AuthorityState.Step)
    {i j : Nat} (hij : i ≤ j) (hj : j < run.length) :
    KeepsHolders (run.get ⟨i, hij.trans_lt hj⟩) (run.get ⟨j, hj⟩) := by
  have hp : run.Pairwise KeepsHolders :=
    isChain_iff_pairwise.mp (hr.imp fun _ _ h => h.keepsHolders)
  rcases hij.eq_or_lt with rfl | hlt
  · exact .refl _
  · exact pairwise_iff_get.mp hp ⟨i, _⟩ ⟨j, hj⟩ hlt

/-- Over every run of adding steps and permitted mutations, a tenant that has an
active holder of `access:manage` in some state has one in every later state,
and so does the system plane for `system.access:manage`. -/
theorem no_lockout (run : List AuthorityState) (hr : run.IsChain AuthorityState.Step)
    {i j : Nat} (hij : i ≤ j) (hj : j < run.length) :
    (∀ t, ((coveringHolders (run.get ⟨i, hij.trans_lt hj⟩)).1.get t).Nonempty →
        ((coveringHolders (run.get ⟨j, hj⟩)).1.get t).Nonempty) ∧
      ((coveringHolders (run.get ⟨i, hij.trans_lt hj⟩)).2.Nonempty →
        (coveringHolders (run.get ⟨j, hj⟩)).2.Nonempty) :=
  have h := keepsHolders_of_isChain hr hij hj
  ⟨fun t => h (some t), h none⟩

/-- Two administrators of tenant 10, one of whom manages the system plane as
well. -/
def twoAdmins : Db where
  tenants := [10]
  users := [⟨1, true⟩, ⟨2, true⟩]
  roles := [⟨20, some 10⟩]
  userRoles := [⟨10, 2, 20⟩]
  hostTags := []
  hosts := []
  softwareItems := []
  hostSoftwareItems := []
  accessGrants :=
    [⟨30, some 10, .user 1, some [⟨.any, .any⟩], some .all, none⟩,
      ⟨31, none, .role 20, some [⟨.exact "access", .exact .manage⟩], some .all, none⟩,
      ⟨32, none, .user 1, some [⟨.subtree "system", .any⟩], some .all, none⟩]

/-- Removing the direct grant of the first administrator is permitted, and
leaves the tenant with a holder. -/
theorem no_lockout_twoAdmins :
    checkLockout twoAdmins 10 (.deleteGrant 30) = .ok .permitted ∧
      ((coveringHolders (applyMutation (.deleteGrant 30) twoAdmins.authority)).1.get 10).Nonempty :=
  have hp : checkLockout twoAdmins 10 (.deleteGrant 30) = .ok .permitted := by decide
  have hr : List.IsChain AuthorityState.Step
      [twoAdmins.authority, applyMutation (.deleteGrant 30) twoAdmins.authority] :=
    .cons_cons (.guarded twoAdmins 10 _ hp) (.singleton _)
  ⟨hp, (no_lockout _ hr (i := 0) (j := 1) (by decide) (by decide)).1 10 (by decide)⟩

/-! ## Agreement with the decision engine -/

/-- On accepted grants, those of the authority of `u` in `t` that cover
`access:manage` are those that confer it on `u` there. -/
theorem mem_loadAuthority_accessManage_iff {db t} (hac : g.Accepted) :
    (g ∈ (loadAuthority db t u).grants ∧ g.coversAction Actions.accessManage = true) ↔
      g ∈ (resolveRows db.accessGrants).1 ∧ Confers db.userRoles (some t) u g := by
  obtain ⟨plane, hw⟩ := hac.wellEncoded
  rw [mem_loadAuthority, Confers, and_assoc]
  refine and_congr_right fun _ => ?_
  simp only [Option.mem_some_iff, forall_eq', hw.selector, true_and]
  rw [and_comm]
  refine and_congr_right fun hc => ?_
  -- A pattern that covers `access:manage` puts the grant on the tenant plane.
  have hpl : plane = .tenant := by
    obtain ⟨p, hp, hm⟩ := any_eq_true.mp hc
    have hre := (Bool.and_eq_true_iff.mp hm).1
    have hs := (patternPlane_eq_system_iff hre).not.mpr (by decide)
    rw [hw.pure p hp] at hs
    cases plane with
    | system => exact absurd rfl hs
    | tenant => rfl
  subst hpl
  constructor
  · rintro (⟨hsu, ht | ht⟩ | ⟨a, ha, hr, hat, hau⟩)
    · exact .inl ⟨hsu, ht⟩
    · have he := hw.encoding
      rw [hsu, ht] at he
      cases he
    · exact .inr ⟨a, ha, hr, hau, hat⟩
  · rintro (⟨hsu, ht⟩ | ⟨a, ha, hr, hau, hat⟩)
    · exact .inl ⟨hsu, .inl ht⟩
    · exact .inr ⟨a, ha, hr, hat, hau⟩

/-- On accepted grants, those of the authority of `u` in some tenant that cover
`system.access:manage` are those that confer it on `u`. -/
theorem mem_loadAuthority_systemAccessManage_iff {db} (hac : g.Accepted) :
    (∃ t, g ∈ (loadAuthority db t u).grants ∧ g.coversAction Actions.systemAccessManage = true) ↔
      g ∈ (resolveRows db.accessGrants).1 ∧ Confers db.userRoles none u g := by
  obtain ⟨plane, hw⟩ := hac.wellEncoded
  simp only [mem_loadAuthority, Confers, hw.selector, true_and, Option.not_mem_none,
    false_implies, implies_true, and_true]
  constructor
  · rintro ⟨t, ⟨hg, ⟨hs, -⟩ | ⟨a, ha, hr, -, hau⟩⟩, hc⟩
    · exact ⟨hg, hc, .inl hs⟩
    · exact ⟨hg, hc, .inr ⟨a, ha, hr, hau⟩⟩
  · rintro ⟨hg, hc, hs | ⟨a, ha, hr, hau⟩⟩
    · -- The grant is on the system plane, hence stored without a tenant.
      have hpl : plane = .system := by
        obtain ⟨p, hp, hm⟩ := any_eq_true.mp hc
        have hre := (Bool.and_eq_true_iff.mp hm).1
        rw [← hw.pure p hp]
        exact (patternPlane_eq_system_iff hre).mpr (by decide)
      subst hpl
      have hn : g.tenantId = none := by
        have he := hw.encoding
        cases ht : g.tenantId with
        | none => rfl
        | some =>
          rw [ht] at he
          cases he
      exact ⟨0, ⟨hg, .inl ⟨hs, .inr hn⟩⟩, hc⟩
    · exact ⟨a.tenantId, ⟨hg, .inr ⟨a, ha, hr, rfl, hau⟩⟩, hc⟩

/-- The guard counts exactly the users that the engine admits.  The tables are
arbitrary, up to every decodable grant row having passed validation when it was
written; the credential has no scope. -/
theorem coveringHolders_agrees (db : Db) (engine : AccessEngine)
    (ha : ∀ row ∈ db.accessGrants, ∀ g, resolveRow row = .ok g → g.Accepted) (u : Uuid) :
    (∀ t, u ∈ (coveringHolders db.authority).1.get t ↔
        u ∈ db.authority.activeUsers ∧
          engine.authorize (context db t u none) Actions.accessManage = .allow) ∧
      (u ∈ (coveringHolders db.authority).2 ↔
        u ∈ db.authority.activeUsers ∧ ∃ t,
          engine.authorize (context db t u none) Actions.systemAccessManage = .allow) := by
  have hac : ∀ g ∈ (resolveRows db.accessGrants).1, g.Accepted := by
    intro g hg
    obtain ⟨row, hr, hok⟩ := mem_resolveRows.mp hg
    exact ha row hr g hok
  have hl : ∀ {t g}, g ∈ (loadAuthority db t u).grants → g.Accepted :=
    fun hg => hac _ (mem_loadAuthority.mp hg).1
  refine ⟨fun t => ?_, ?_⟩
  · rw [authorize_eq_allow_iff rfl rfl rfl]
    have hh : u ∈ (coveringHolders db.authority).holding (some t) ↔ _ := mem_coveringHolders
    refine hh.trans (and_congr_right fun _ => ?_)
    constructor
    · rintro ⟨g, hg, hc⟩
      exact ⟨g, (mem_loadAuthority_accessManage_iff (hac g hg)).mpr ⟨hg, hc⟩⟩
    · rintro ⟨g, hg, hco⟩
      exact ⟨g, (mem_loadAuthority_accessManage_iff (hl hg)).mp ⟨hg, hco⟩⟩
  · have hh : u ∈ (coveringHolders db.authority).holding none ↔ _ := mem_coveringHolders
    refine hh.trans (and_congr_right fun _ => ?_)
    constructor
    · rintro ⟨g, hg, hc⟩
      obtain ⟨t, hm⟩ := (mem_loadAuthority_systemAccessManage_iff (hac g hg)).mpr ⟨hg, hc⟩
      exact ⟨t, (authorize_eq_allow_iff rfl rfl rfl).mpr ⟨g, hm⟩⟩
    · rintro ⟨t, hal⟩
      obtain ⟨g, hg, hco⟩ := (authorize_eq_allow_iff rfl rfl rfl).mp hal
      exact ⟨g, (mem_loadAuthority_systemAccessManage_iff (hl hg)).mp ⟨t, hg, hco⟩⟩

/-- Both administrators of `twoAdmins` are admitted, the second through a role. -/
theorem coveringHolders_agrees_twoAdmins :
    2 ∈ (coveringHolders twoAdmins.authority).1.get 10 ∧
      (mk none).authorize (context twoAdmins 10 2 none) Actions.accessManage = .allow := by
  have ha : ∀ row ∈ twoAdmins.accessGrants, ∀ g, resolveRow row = .ok g → g.Accepted := by
    simp only [twoAdmins, mem_cons, not_mem_nil, or_false]
    rintro row (rfl | rfl | rfl) g hg <;> cases hg <;> exact ⟨twoAdmins, by decide⟩
  have hm : 2 ∈ (coveringHolders twoAdmins.authority).1.get 10 := by decide
  exact ⟨hm, (((coveringHolders_agrees twoAdmins ⟨none⟩ ha 2).1 10).mp hm).2⟩

end Uptrakit.Access
