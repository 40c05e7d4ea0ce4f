import Uptrakit.Access.Catalog

/-!
# Grant patterns

Patterns over actions (`crates/shared/types/src/access/pattern.rs`) and the
write-time check of a grant's pattern list (`bounds.rs`).  The lemmas of the
last section characterise the matcher by the shape of the resource string; the
lockout guard and the decision engine both rest on them.
-/

namespace Uptrakit.Access

open Text

inductive ResourcePattern
  /-- `*`: every resource outside the `system.` plane. -/
  | any
  /-- An exact resource string. -/
  | exact (resource : String)
  /-- `<stem>.*`: strict descendants of `stem`. -/
  | subtree (stem : String)
  deriving DecidableEq

inductive VerbPattern
  | any
  | exact (verb : Verb)
  deriving DecidableEq

structure ActionPattern where
  resource : ResourcePattern
  verb : VerbPattern
  deriving DecidableEq

namespace ActionPattern

variable (p : ActionPattern)

/-- `Display`: the stored text of a pattern. -/
def toText : String :=
  (match p.resource with
    | .any => "*"
    | .exact s => s
    | .subtree stem => stem ++ ".*") ++ ":" ++
  (match p.verb with
    | .any => "*"
    | .exact v => v.asStr)

def resourceMatches (resource : Resource) : Bool :=
  match p.resource with
  | .any => !resource.isSystem
  | .exact s => resource.asStr == s
  | .subtree stem =>
    (stripPrefix resource.asStr stem).any fun rest => len rest > 1 && startsWith rest "."

def verbMatches (verb : Verb) : Bool :=
  match p.verb with
  | .any => true
  | .exact v => v == verb

def matchesAction (action : Action) : Bool :=
  p.resourceMatches action.resource && p.verbMatches action.verb

def matchedCatalogActions : List (CatalogEntry × VerbEntry) :=
  (catalog.flatMap fun e => e.verbs.map fun ve => (e, ve)).filter fun (e, ve) =>
    p.resourceMatches e.resource && p.verbMatches ve.verb

/-- Whether the resource side can reach `plugin.` or `surface.` resources. -/
def reachesDynamic : Bool :=
  match p.resource with
  | .any => true
  | .exact s => startsWith s "plugin." || startsWith s "surface."
  | .subtree stem =>
    stem == "plugin" || stem == "surface" || startsWith stem "plugin." ||
      startsWith stem "surface."

/-- Write-time validity: the pattern matches a catalog action or can reach a
dynamic namespace. -/
def canMatchAny : Bool :=
  !p.matchedCatalogActions.isEmpty || p.reachesDynamic

end ActionPattern

/-! ## Pattern lists -/

namespace Bounds

def maxPatternsPerGrant : Nat := 16
def maxGrantDescriptionLen : Nat := 500
def maxSelectorTagIds : Nat := 32
def maxSelectorHostIds : Nat := 100
def maxSelectorSoftwareIds : Nat := 100
def maxSelectorItemIds : Nat := 100

end Bounds

inductive PatternSetError
  | tooMany (max actual : Nat)
  | unmatchable (index : Nat) (pattern : String)
  deriving DecidableEq

/-- The loop of `validate_patterns`, from position `index` on. -/
def validatePatternsFrom (index : Nat) : List ActionPattern → Except PatternSetError Unit
  | [] => .ok ()
  | pattern :: rest =>
    if !pattern.canMatchAny then .error (.unmatchable index pattern.toText)
    else validatePatternsFrom (index + 1) rest

def validatePatterns (patterns : List ActionPattern) : Except PatternSetError Unit :=
  if patterns.length > Bounds.maxPatternsPerGrant then
    .error (.tooMany Bounds.maxPatternsPerGrant patterns.length)
  else validatePatternsFrom 0 patterns

/-! ## What the matcher accepts -/

namespace ActionPattern

theorem subtree_matches_iff {stem v r} : resourceMatches ⟨.subtree stem, v⟩ r = true ↔
      ∃ tail, tail ≠ [] ∧ r.asStr.toList = stem.toList ++ '.' :: tail := by
  simp only [resourceMatches, Option.any_eq_true, Bool.and_eq_true, decide_eq_true_eq,
    startsWith_iff, stripPrefix_eq_some]
  constructor
  · rintro ⟨_, hr, hl, tail, ht⟩
    exact ⟨tail, (one_lt_len_iff (by decide) ht).mp hl, by rw [hr, ht]; rfl⟩
  · rintro ⟨tail, hne, hr⟩
    refine ⟨String.ofList ('.' :: tail), by rw [hr, String.toList_ofList], ?_, tail, by simp⟩
    exact (one_lt_len_iff (by decide) (String.toList_ofList ..)).mpr hne

end ActionPattern

end Uptrakit.Access
