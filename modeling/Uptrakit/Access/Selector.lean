import Uptrakit.Access.Pattern
import Mathlib.Data.Finset.Basic

/-!
# Selectors

The resource selector of a grant, its write-time checks and its decision-time
matcher (`crates/shared/types/src/access/{selector,decision}.rs`).
-/

namespace Uptrakit.Access

inductive Selector
  | all
  | tags (ids : List Uuid)
  | hosts (ids : List Uuid)
  | software (ids : List Uuid)
  | items (ids : List Uuid)
  deriving DecidableEq

/-- The narrowing axis a selector other than `all` filters on. -/
inductive SelectorAxis
  | tags | hosts | software | items
  deriving DecidableEq

namespace SelectorAxis

/-- `SelectorAxis::of`: the axis of a selector, `none` for `all`. -/
def ofSelector : Selector → Option SelectorAxis
  | .all => none
  | .tags _ => some tags
  | .hosts _ => some hosts
  | .software _ => some software
  | .items _ => some items

end SelectorAxis

def SelectorSupport.admits (support : SelectorSupport) : Selector → Bool
  | .all => true
  | .tags _ | .hosts _ => support == .host || support == .hostAndSoftware
  | .software _ | .items _ => support == .hostAndSoftware

inductive SelectorLevelError
  | notAdmitted (pattern action : String) (axis : SelectorAxis)
  | dynamicPattern (pattern : String)
  deriving DecidableEq

/-- The inner loop of `validate_selector_level`, over the catalog actions that
`pattern` matches. -/
def validateAdmits (pattern : ActionPattern) (selector : Selector) (axis : SelectorAxis) :
    List (CatalogEntry × VerbEntry) → Except SelectorLevelError Unit
  | [] => .ok ()
  | (e, ve) :: rest =>
    if !ve.selectorSupport.admits selector then
      .error (.notAdmitted pattern.toText (e.actionStr ve) axis)
    else validateAdmits pattern selector axis rest

/-- The outer loop of `validate_selector_level`, over the patterns. -/
def validateLevels (selector : Selector) (axis : SelectorAxis) :
    List ActionPattern → Except SelectorLevelError Unit
  | [] => .ok ()
  | pattern :: rest =>
    if pattern.reachesDynamic then .error (.dynamicPattern pattern.toText)
    else do
      validateAdmits pattern selector axis pattern.matchedCatalogActions
      validateLevels selector axis rest

/-- Every action reachable by every pattern must admit the selector's axis. -/
def validateSelectorLevel (patterns : List ActionPattern) (selector : Selector) :
    Except SelectorLevelError Unit :=
  match SelectorAxis.ofSelector selector with
  | none => .ok ()
  | some axis => validateLevels selector axis patterns

inductive SelectorValidationError
  | tooManyIds (kind : String) (max actual : Nat)
  | emptyIds (kind : String)
  deriving DecidableEq

def Selector.validateIds (len max : Nat) (kind : String) : Except SelectorValidationError Unit :=
  if len = 0 then .error (.emptyIds kind)
  else if len > max then .error (.tooManyIds kind max len)
  else .ok ()

def Selector.validate : Selector → Except SelectorValidationError Unit
  | .all => .ok ()
  | .tags ids => validateIds ids.length Bounds.maxSelectorTagIds "tag"
  | .hosts ids => validateIds ids.length Bounds.maxSelectorHostIds "host"
  | .software ids => validateIds ids.length Bounds.maxSelectorSoftwareIds "software item"
  | .items ids => validateIds ids.length Bounds.maxSelectorItemIds "host software item"

inductive TargetRef
  | host (hostId : Uuid)
  | hostSoftwareItem (id hostId softwareItemId : Uuid)

def TargetRef.hostId : TargetRef → Uuid
  | .host hostId => hostId
  | .hostSoftwareItem _ hostId _ => hostId

/-- Decision-time matcher; `hostTags` are the tags of the target's host. -/
def Selector.covers (target : TargetRef) (hostTags : Finset Uuid) : Selector → Bool
  | .all => true
  | .tags ids => ids.any (· ∈ hostTags)
  | .hosts ids => ids.contains target.hostId
  | .software ids =>
    match target with
    | .host _ => false
    | .hostSoftwareItem _ _ softwareItemId => ids.contains softwareItemId
  | .items ids =>
    match target with
    | .host _ => false
    | .hostSoftwareItem id _ _ => ids.contains id

end Uptrakit.Access
