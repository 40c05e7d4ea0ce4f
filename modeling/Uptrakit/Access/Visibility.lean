import Mathlib.Data.Finset.Lattice.Lemmas
import Uptrakit.Access.Engine

/-!
# Visibility

What a principal sees of a list (`crates/shared/types/src/access/decision.rs`,
`AccessEngine::visibility`): the union of the selectors of the grants that match
the action, axis by axis.  A decision for one target tests the grants one after
the other.  Both say the same of every target (`decide_eq_allow_iff_covers`).
-/

namespace Uptrakit.Access

open List

inductive Visibility
  | full
  | filter (tags hosts software items : Finset Uuid)
  | none
  deriving DecidableEq

namespace Visibility

/-- The variables of the loop of `from_selectors`. -/
structure Axes where
  tags : Finset Uuid := ∅
  hosts : Finset Uuid := ∅
  software : Finset Uuid := ∅
  items : Finset Uuid := ∅
  any : Bool := false

/-- The loop of `from_selectors`, and what comes after it. -/
def fromSelectorsLoop (axes : Axes) : List Selector → Visibility
  | [] =>
    if !axes.any then .none
    else .filter axes.tags axes.hosts axes.software axes.items
  | selector :: rest =>
    let axes := { axes with any := true }
    match selector with
    | .all => .full
    | .tags ids => fromSelectorsLoop { axes with tags := axes.tags ∪ ids.toFinset } rest
    | .hosts ids => fromSelectorsLoop { axes with hosts := axes.hosts ∪ ids.toFinset } rest
    | .software ids =>
      fromSelectorsLoop { axes with software := axes.software ∪ ids.toFinset } rest
    | .items ids => fromSelectorsLoop { axes with items := axes.items ∪ ids.toFinset } rest

/-- `from_selectors`: the union of the narrowing axes. -/
def fromSelectors (selectors : List Selector) : Visibility := fromSelectorsLoop {} selectors

/-- One of the sets covers the target, each as `Selector.covers` does on its axis. -/
def Axes.covers (axes : Axes) (target : TargetRef) (hostTags : Finset Uuid) : Prop :=
  (∃ id ∈ axes.tags, id ∈ hostTags) ∨ target.hostId ∈ axes.hosts ∨
    match target with
    | .host _ => False
    | .hostSoftwareItem id _ softwareItemId => softwareItemId ∈ axes.software ∨ id ∈ axes.items

/-- The row of the target is visible. -/
def covers (target : TargetRef) (hostTags : Finset Uuid) : Visibility → Prop
  | full => True
  | filter tags hosts software items =>
    Axes.covers { tags, hosts, software, items } target hostTags
  | none => False

end Visibility

/-- `AccessEngine::visibility`.  Unlike the decision it does not look at the
registry of dynamic actions. -/
def AccessEngine.visibility (_engine : AccessEngine) (ctx : AccessContext) (action : Action) :
    Visibility :=
  if ctx.scope.any fun scope => !scope.any (·.matchesAction action) then .none
  else
    .fromSelectors
      ((ctx.grants.filter fun g => g.patterns.any (·.matchesAction action)).map (·.selector))

namespace Visibility

variable {target : TargetRef} {hostTags : Finset Uuid}

/-- Without a set nothing is covered. -/
theorem Axes.not_covers_empty (any) : ¬ Axes.covers { any } target hostTags := by
  cases target with
  | host | hostSoftwareItem => simp [Axes.covers]

variable (axes : Axes)

/-- Together two families of sets cover what one of them covers. -/
theorem Axes.covers_union (other : Axes) (any : Bool) :
    Axes.covers ⟨axes.tags ∪ other.tags, axes.hosts ∪ other.hosts,
      axes.software ∪ other.software, axes.items ∪ other.items, any⟩ target hostTags ↔
        axes.covers target hostTags ∨ other.covers target hostTags := by
  simp only [Axes.covers]
  cases target with
  | host | hostSoftwareItem => grind

def Axes.ofSelector : Selector → Axes
  | .all => {}
  | .tags ids => { tags := ids.toFinset }
  | .hosts ids => { hosts := ids.toFinset }
  | .software ids => { software := ids.toFinset }
  | .items ids => { items := ids.toFinset }

theorem Axes.covers_ofSelector {selector : Selector} (h : selector ≠ .all) :
    (Axes.ofSelector selector).covers target hostTags ↔
      selector.covers target hostTags = true := by
  cases selector with
  | all => cases h rfl
  | tags | hosts | software | items =>
    cases target with
    | host | hostSoftwareItem => simp [ofSelector, Axes.covers, Selector.covers]

/-- The loop loses no target and adds none.  Before the first selector the sets are empty. -/
theorem covers_fromSelectorsLoop (selectors)
    (han : axes.any = false → ¬ axes.covers target hostTags) :
    (fromSelectorsLoop axes selectors).covers target hostTags ↔
      axes.covers target hostTags ∨
        ∃ selector ∈ selectors, selector.covers target hostTags = true := by
  induction selectors generalizing axes with
  | nil =>
    simp only [fromSelectorsLoop]
    cases h : axes.any with
    | false => simp [covers, han h]
    | true => simp [covers, Axes.covers]
  | cons selector rest ih =>
    simp only [exists_mem_cons_iff]
    by_cases hal : selector = .all
    · simp [hal, fromSelectorsLoop, covers, Selector.covers]
    · have ha := @Axes.covers_union target hostTags axes (.ofSelector selector) true
      rw [Axes.covers_ofSelector hal] at ha
      rw [← or_assoc, ← ha, ← ih _ (by simp)]
      cases selector with
      | all => cases hal rfl
      | _ => simp [fromSelectorsLoop, Axes.ofSelector]

/-- The union of selectors covers what one of them covers. -/
theorem covers_fromSelectors (selectors) : (fromSelectors selectors).covers target hostTags ↔
      ∃ selector ∈ selectors, selector.covers target hostTags = true := by
  have he : ¬ Axes.covers {} target hostTags := Axes.not_covers_empty false
  rw [fromSelectors, covers_fromSelectorsLoop {} selectors fun _ => he]
  exact or_iff_right he

end Visibility

namespace AccessEngine

variable {engine : AccessEngine} {ctx : AccessContext} {action : Action}

/-- The action is built in or registered. -/
def Admits (engine : AccessEngine) (action : Action) : Prop :=
  (action.resource.pluginType = none ∧ action.resource.surfaceId = none) ∨
    engine.registry.any (· action) = true

/-- An action that is built in or registered is allowed on a target when the scope admits it and
some grant that matches it covers the target. -/
theorem decide_eq_allow_iff (h : engine.Admits action) (target : TargetRef)
    (hostTags : Finset Uuid) :
    engine.decide ctx action (some (target, hostTags)) = .allow ↔
      (ctx.scope.any fun scope => !scope.any (·.matchesAction action)) = false ∧
        ∃ g ∈ ctx.grants, g.patterns.any (·.matchesAction action) = true ∧
          g.selector.covers target hostTags = true := by
  have hr : ((action.resource.pluginType.isSome || action.resource.surfaceId.isSome) &&
      !(engine.registry.any (· action))) = false := by
    rcases h with ⟨hp, hsu⟩ | hre
    · simp [hp, hsu]
    · simp [hre]
  simp only [decide, hr, Bool.false_eq_true, if_false, Option.any_some]
  -- A target that is covered needs a grant that matches, so the earlier check adds nothing.
  have hg : (ctx.grants.filter fun g => g.patterns.any (·.matchesAction action)).any
        (·.selector.covers target hostTags) = true ↔
      ∃ g ∈ ctx.grants, g.patterns.any (·.matchesAction action) = true ∧
        g.selector.covers target hostTags = true := by
    simp only [any_eq_true, mem_filter, and_assoc]
  rw [← hg]
  split
  · next hn => simp [isEmpty_iff.1 hn]
  · split
    · next hs => simp [hs]
    · next hs =>
        split
        · next hc =>
            rw [Bool.not_eq_true'] at hc
            simp [hc]
        · next hc =>
            rw [Bool.not_eq_true'] at hc
            simp [hc, hs]

/-- The decision for a target and the filter of lists agree. -/
theorem decide_eq_allow_iff_covers (engine : AccessEngine) (ctx : AccessContext) (action : Action)
    (ha : engine.Admits action) (target : TargetRef) (hostTags : Finset Uuid) :
    engine.decide ctx action (some (target, hostTags)) = .allow ↔
      (engine.visibility ctx action).covers target hostTags := by
  rw [decide_eq_allow_iff ha, visibility]
  split
  · next hs => simp [hs, Visibility.covers]
  · next hs =>
      rw [Visibility.covers_fromSelectors]
      simp only [hs, true_and, mem_map, mem_filter]
      constructor
      · rintro ⟨g, hg, hm, hc⟩
        exact ⟨g.selector, ⟨g, ⟨hg, hm⟩, rfl⟩, hc⟩
      · rintro ⟨_, ⟨g, ⟨hg, hm⟩, rfl⟩, hc⟩
        exact ⟨g, hg, hm, hc⟩

/-- One grant for the hosts with tag 7, one for the item 40. -/
def taggedContext : AccessContext where
  userId := 1
  tenantId := 10
  grants :=
    [⟨30, some 10, .user 1, [⟨.exact "hosts", .any⟩], .tags [7], none⟩,
      ⟨31, some 10, .user 1, [⟨.exact "hosts", .any⟩], .items [40], none⟩]
  scope := none

theorem decide_eq_allow_iff_covers_taggedContext :
    let action : Action := ⟨.hosts, .read, by decide⟩
    let visibility := AccessEngine.visibility ⟨none⟩ taggedContext action
    visibility = .filter {7} ∅ ∅ {40} ∧ visibility.covers (.host 5) {7} ∧
      ¬ visibility.covers (.host 5) {8} := by
  refine ⟨by decide, ?_, ?_⟩
  · exact (decide_eq_allow_iff_covers ⟨none⟩ taggedContext _ (.inl ⟨rfl, rfl⟩) _ _).1 (by decide)
  · exact (decide_eq_allow_iff_covers ⟨none⟩ taggedContext _ (.inl ⟨rfl, rfl⟩) _ _).not.1
      (by decide)

end AccessEngine

end Uptrakit.Access
