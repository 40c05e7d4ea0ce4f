import Uptrakit.Text.Basic

/-!
# The action vocabulary of the access model

Resources, verbs and the built-in action catalog
(`crates/shared/types/src/access/{mod,verb,catalog,action}.rs`).  An action is a
`resource:verb` pair.  Two of its invariants are carried by the types: a
dynamic resource always holds a grammatical name under its own namespace, and
an action always pairs a resource with a verb its validity matrix allows.
-/

namespace Uptrakit.Access

open Text

/-- Identifiers of rows; only their identity matters. -/
abbrev Uuid := Nat

/-! ## Segments -/

/-- The characters of a segment after the first: `prevHyphen` says that the
last character read was a hyphen. -/
def isValidSegmentTail (prevHyphen : Bool) : List Char → Bool
  | [] => !prevHyphen
  | c :: cs =>
    if c.isLower || c.isDigit then isValidSegmentTail false cs
    else if c = '-' && !prevHyphen then isValidSegmentTail true cs
    else false

/-- `is_valid_segment`: a kebab-case identifier segment. -/
def isValidSegment : List Char → Bool
  | [] => false
  | first :: chars => first.isLower && isValidSegmentTail false chars

/-- `is_valid_segment_path`: one or more segments joined by dots. -/
def isValidSegmentPath (s : String) : Bool :=
  !s.toList.isEmpty && (s.toList.splitOn '.').all isValidSegment

/-- A resource string of a dynamic namespace: the namespace's prefix followed
by a valid segment path. -/
structure DynamicName (pre : String) where
  full : String
  valid : ((stripPrefix full pre).any isValidSegmentPath) = true
  deriving DecidableEq

/-! ## Verbs, selector support, resources -/

inductive Verb
  | read | create | update | delete | trigger | approve | reject | manage | use
  deriving DecidableEq

def Verb.all : List Verb :=
  [.read, .create, .update, .delete, .trigger, .approve, .reject, .manage, .use]

def Verb.asStr : Verb → String
  | .read => "read"
  | .create => "create"
  | .update => "update"
  | .delete => "delete"
  | .trigger => "trigger"
  | .approve => "approve"
  | .reject => "reject"
  | .manage => "manage"
  | .use => "use"

/-- Selector-capability level of an action; each level admits the selector
kinds of the previous ones. -/
inductive SelectorSupport
  | none | host | hostAndSoftware
  deriving DecidableEq

/-- A built-in resource of the catalog, or a resource of one of the two
dynamic namespaces. -/
inductive Resource
  | services | systemServices | software | checks | updates | scheduler | hosts | hostTags
  | settings | settingsAuth | settingsEnrollmentTokens | settingsCertificates
  | systemSettings | systemAccess | commands | pluginConfigs | notifications | audit
  | systemAudit | users | access | discoveryIgnores | mcp | systemConfigState
  | plugin (name : DynamicName "plugin.")
  | surface (name : DynamicName "surface.")
  deriving DecidableEq

namespace Resource

def asStr : Resource → String
  | services => "services"
  | systemServices => "system.services"
  | software => "software"
  | checks => "checks"
  | updates => "updates"
  | scheduler => "scheduler"
  | hosts => "hosts"
  | hostTags => "hosts.tags"
  | settings => "settings"
  | settingsAuth => "settings.auth"
  | settingsEnrollmentTokens => "settings.enrollment-tokens"
  | settingsCertificates => "settings.certificates"
  | systemSettings => "system.settings"
  | systemAccess => "system.access"
  | commands => "commands"
  | pluginConfigs => "plugin-configs"
  | notifications => "notifications"
  | audit => "audit"
  | systemAudit => "system.audit"
  | users => "users"
  | access => "access"
  | discoveryIgnores => "discovery.ignores"
  | mcp => "mcp"
  | systemConfigState => "system.config-state"
  | plugin name => name.full
  | surface name => name.full

/-- Whether this is a `system.`-plane resource. -/
def isSystem (r : Resource) : Bool := startsWith r.asStr "system."

/-- The plugin-type remainder of a `plugin` resource. -/
def pluginType : Resource → Option String
  | plugin name => stripPrefix name.full "plugin."
  | _ => none

/-- The surface-id remainder of a `surface` resource. -/
def surfaceId : Resource → Option String
  | surface name => stripPrefix name.full "surface."
  | _ => none

/-- Verbs the validity matrix allows; dynamic resources accept the whole
closed set. -/
def allowedVerbs : Resource → List Verb
  | services | systemServices => [.read, .approve, .reject, .delete, .update]
  | software => [.read, .create, .update, .delete]
  | checks | updates | pluginConfigs => [.trigger]
  | hosts => [.read, .update, .delete]
  | scheduler | hostTags | settingsAuth | settingsEnrollmentTokens | settingsCertificates
  | systemSettings | systemAccess | commands | users | access | discoveryIgnores => [.manage]
  | settings | audit | systemAudit => [.read]
  | notifications | systemConfigState => [.read, .manage]
  | mcp => [.use]
  | plugin _ | surface _ => Verb.all

end Resource

/-! ## The catalog -/

structure VerbEntry where
  verb : Verb
  selectorSupport : SelectorSupport
  deriving DecidableEq

structure CatalogEntry where
  resource : Resource
  verbs : List VerbEntry

/-- `resource_str` of a catalog row. -/
def CatalogEntry.resourceStr (e : CatalogEntry) : String := e.resource.asStr

/-- `action_str` of a verb of a catalog row. -/
def CatalogEntry.actionStr (e : CatalogEntry) (ve : VerbEntry) : String :=
  e.resourceStr ++ ":" ++ ve.verb.asStr

/-- A catalog row all of whose actions have the same selector support, in the
verb order of the validity matrix. -/
def CatalogEntry.uniform (support : SelectorSupport) (resource : Resource) : CatalogEntry where
  resource := resource
  verbs := resource.allowedVerbs.map (⟨·, support⟩)

def catalog : List CatalogEntry :=
  [.uniform .none .services, .uniform .none .systemServices, .uniform .none .software,
   .uniform .hostAndSoftware .checks, .uniform .hostAndSoftware .updates,
   .uniform .none .scheduler, .uniform .host .hosts, .uniform .none .hostTags,
   .uniform .none .settings, .uniform .none .settingsAuth,
   .uniform .none .settingsEnrollmentTokens, .uniform .none .settingsCertificates,
   .uniform .none .systemSettings, .uniform .none .systemAccess, .uniform .none .commands,
   .uniform .none .pluginConfigs, .uniform .none .notifications, .uniform .none .audit,
   .uniform .none .systemAudit, .uniform .none .users, .uniform .none .access,
   .uniform .none .discoveryIgnores, .uniform .none .mcp, .uniform .none .systemConfigState]

/-! ## Actions -/

/-- A concrete action.  A pair outside the validity matrix is not an action. -/
structure Action where
  resource : Resource
  verb : Verb
  valid : verb ∈ resource.allowedVerbs
  deriving DecidableEq

namespace Actions

def accessManage : Action := ⟨.access, .manage, by decide⟩

def systemAccessManage : Action := ⟨.systemAccess, .manage, by decide⟩

end Actions

end Uptrakit.Access
