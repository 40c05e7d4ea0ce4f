/-!
# Releases

The latest version of a package is chosen twice: an agent takes the first release that a plugin
gives (`run_fetch_group` of `crates/shared/agent-core/src/version_check.rs`), and the controller
the first one that is not a pre-release (`run_controller_side_fetch_releases` of
`crates/core/scheduler-runtime/src/executors/fetch_releases.rs`).  They agree
unless the list begins with a pre-release of another version than its first stable release
(`latestRelease_eq_iff`).
-/

namespace Uptrakit.Plugin

inductive UpdateCategory
  | security | bugfix | feature | unknown
  | other (raw : String)

structure UpstreamRelease where
  version : String
  category : Option UpdateCategory
  isPrerelease : Bool

def firstRelease (releases : List UpstreamRelease) : Option String × UpdateCategory :=
  match releases.head? with
  | some release => (some release.version, release.category.getD .unknown)
  | none => (none, .unknown)

/-- The release that the controller stores: the first stable one, or else the first one. -/
def latestRelease (releases : List UpstreamRelease) : Option UpstreamRelease :=
  (releases.find? (!·.isPrerelease)).or releases.head?

/-- The latest version is the same exactly if the pre-releases before the first stable release, if
there are any, begin with one of its version. -/
theorem latestRelease_eq_iff (releases : List UpstreamRelease) :
    (latestRelease releases).map (·.version) = (firstRelease releases).1 ↔
      ∀ first pre stable post, releases = first :: pre ++ stable :: post →
        (∀ r ∈ first :: pre, r.isPrerelease) → ¬ stable.isPrerelease →
          stable.version = first.version := by
  cases releases with
  | nil => simp [latestRelease, firstRelease]
  | cons r releases =>
    have hf : (firstRelease (r :: releases)).1 = some r.version := rfl
    rw [hf, latestRelease]
    constructor
    · intro h first pre stable post hr hp hs
      rw [hr, List.find?_append, List.find?_eq_none.2 (by simpa using hp)] at h
      simp_all
    · intro h
      cases hfi : (r :: releases).find? (!·.isPrerelease) with
      | none => rfl
      | some stable =>
        obtain ⟨hs, pre, post, hr, hp⟩ := List.find?_eq_some_iff_append.1 hfi
        cases pre with
        | nil => simp_all
        | cons first pre =>
          -- A pre-release comes first.
          have hv : stable.version = first.version :=
            h first pre stable post hr (by simpa using hp) (by simpa using hs)
          simp_all

/-- The newest release is a release candidate. -/
theorem latestRelease_ne :
    let releases := [⟨"2.0-rc1", none, true⟩, ⟨"1.9", none, false⟩]
    (latestRelease releases).map (·.version) ≠ (firstRelease releases).1 := by
  decide

end Uptrakit.Plugin
