import Uptrakit.Agent.Execution
import Uptrakit.Plugin.Version

/-!
# Batch checks of cargo crates

`sparse_index_url`, `fetch_crate_releases` and `batch_fetch`
(`crates/plugins/package-managers/cargo/src/releases.rs`).  The path in the index is sliced out of
the crate name by bytes, so a name that is empty or has longer characters there makes the batch
panic.  The releases are sorted by a comparison that need not be an order (`Plugin.Version`), and
`slice::sort_by` may panic then.
-/

namespace Uptrakit.Plugin

open Agent List Option
open String (utf8Len)

/-- `sparse_index_url`; `none` is a panic.  `toLowercase` is `str::to_lowercase`. -/
def sparseIndexUrl (toLowercase : String → String) (registryBase crateName : String) :
    Option String :=
  let name := toLowercase crateName
  let path := match utf8Len name.toList with
    | 1 => some "1"
    | 2 => some "2"
    | 3 => (sliceTo 1 name.toList).map fun first => "3/" ++ String.ofList first
    | _ => (sliceTo 2 name.toList).bind fun first => (sliceTo 4 name.toList).map fun four =>
      String.ofList first ++ "/" ++ String.ofList (drop first.length four)
  path.map fun path =>
    String.ofList (registryBase.toList.rdropWhile (· == '/')) ++ "/" ++ path ++ "/" ++ name

/-! ## The releases of a crate -/

section Sorting

variable {α : Type*}

/-- The comparison orders the elements of the list. -/
structure OrderedBy (cmp : α → α → Ordering) (l : List α) : Prop where
  swap : ∀ a ∈ l, ∀ b ∈ l, cmp b a = (cmp a b).swap
  trans : ∀ a ∈ l, ∀ b ∈ l, ∀ c ∈ l, cmp a b ≠ .gt → cmp b c ≠ .gt → cmp a c ≠ .gt

/-- What the documentation of `slice::sort_by` promises: the elements stay, and they are sorted if
the comparison orders them.  Otherwise their order is unspecified, and the sort may panic
(`none`). -/
structure SortsBy (sort : (α → α → Ordering) → List α → Option (List α)) : Prop where
  perm : ∀ cmp l l', sort cmp l = some l' → l' ~ l
  sorted : ∀ cmp l, OrderedBy cmp l → ∃ l', sort cmp l = some l' ∧ l'.Pairwise (cmp · · ≠ .gt)

/-- A sort that panics whenever it may. -/
noncomputable def strictSort (cmp : α → α → Ordering) (l : List α) : Option (List α) :=
  open Classical in
  if OrderedBy cmp l then some ((l.attach.mergeSort (cmp · · != .gt)).map (·.1)) else none

theorem sortsBy_strictSort : SortsBy (strictSort (α := α)) where
  perm cmp l l' h := by
    obtain ⟨-, ⟨⟩⟩ := Option.ite_none_right_eq_some.1 h
    exact ((mergeSort_perm ..).map _).trans (by rw [List.attach_map_subtype_val])
  sorted cmp l h := by
    refine ⟨_, if_pos h, pairwise_map.2 ((pairwise_mergeSort ?_ ?_ _).imp (by simp))⟩
    · intro a b c hab hbc
      exact bne_iff_ne.2 (h.trans a a.2 b b.2 c c.2 (bne_iff_ne.1 hab) (bne_iff_ne.1 hbc))
    · intro a b
      cases hab : cmp a.1 b.1 <;> simp [h.swap a a.2 b b.2, hab]

end Sorting

structure IndexVersion where
  version : String
  yanked : Bool

/-- What comes of a request to the index; the body is parsed by `IndexKrate::from_slice`. -/
inductive IndexAnswer
  | failed (error : String)
  | notFound
  | refused (status message : String)
  | body (krate : Except String (List IndexVersion))

inductive CargoError
  | request (message : String)
  | apiError (status message : String)

/-- The fields of an `UpstreamRelease` that are set. -/
structure CrateRelease (V : Type*) where
  version : Version V
  tag : String
  isPrerelease : Bool
  releaseUrl : String

def isPrereleaseVersion (version : String) : Bool := version.toList.contains '-'

variable {V : Type*} [LinearOrder V] (toLowercase : String → String) (parse : String → Option V)
  (registryBase : String) (includePrereleases : Bool)

/-- The versions that are no yanked ones and no unwanted pre-releases. -/
def keptVersions (versions : List IndexVersion) : List String :=
  (versions.filter fun v =>
    !v.yanked && (!isPrereleaseVersion v.version || includePrereleases)).map (·.version)

def crateRelease (crateName version : String) : CrateRelease V where
  version := .new parse version
  tag := version
  isPrerelease := isPrereleaseVersion version
  releaseUrl := "https://crates.io/crates/" ++ crateName ++ "/" ++ version

abbrev ReleaseSort (V : Type*) :=
  (CrateRelease V → CrateRelease V → Ordering) → List (CrateRelease V) →
    Option (List (CrateRelease V))

/-- `fetch_crate_releases`; `none` is a panic. -/
def fetchCrateReleases (sort : ReleaseSort V) (crateName : String) (index : String → IndexAnswer) :
    Option (Except CargoError (List (CrateRelease V))) :=
  (sparseIndexUrl toLowercase registryBase crateName).bind fun url =>
    match index url with
    | .failed error => some (.error (.request error))
    | .notFound => some (.ok [])
    | .refused status message => some (.error (.apiError status message))
    | .body (.error error) => some (.error (.request
        ("failed to parse sparse index response for '" ++ crateName ++ "': " ++ error)))
    | .body (.ok versions) =>
      -- The newest version comes first.
      (sort (fun a b => b.version.cmp a.version)
        ((keptVersions includePrereleases versions).map (crateRelease parse crateName))).map .ok

/-- A `BatchFetchResult`: the releases of a crate, or the error. -/
structure BatchFetchResult (V : Type*) where
  packageIdentifier : String
  releases : Except CargoError (List (CrateRelease V))

/-- `batch_fetch`, up to the order in which the requests complete.  With each identifier comes what
the index answers to its request. -/
def batchFetch (sort : ReleaseSort V) (items : List (String × (String → IndexAnswer))) :
    Option (List (BatchFetchResult V)) :=
  items.mapM fun item =>
    (fetchCrateReleases toLowercase parse registryBase includePrereleases sort item.1 item.2).map
      (⟨item.1, ·⟩)

/-! ## Answers -/

/-- A character of the name ends after `n` bytes. -/
def Boundary (name : String) (n : Nat) : Prop := ∃ first, first <+: name.toList ∧ utf8Len first = n

/-- The name can be sliced into a path of the index. -/
def Indexable (name : String) : Prop :=
  utf8Len name.toList = 1 ∨ utf8Len name.toList = 2 ∨
    utf8Len name.toList = 3 ∧ Boundary name 1 ∨ Boundary name 2 ∧ Boundary name 4

theorem isSome_sliceTo {name : String} {n} : (sliceTo n name.toList).isSome ↔ Boundary name n := by
  simp only [isSome_iff_exists, sliceTo_eq_some_iff, Boundary]

theorem isSome_sparseIndexUrl {crateName} :
    (sparseIndexUrl toLowercase registryBase crateName).isSome ↔
      Indexable (toLowercase crateName) := by
  have hfo : Boundary (toLowercase crateName) 4 → 4 ≤ utf8Len (toLowercase crateName).toList := by
    rintro ⟨first, hf, hl⟩
    rw [← hl]
    exact String.utf8Len_le_of_prefix hf
  simp only [sparseIndexUrl, Indexable, ← isSome_sliceTo] at hfo ⊢
  split
  · simp [*]
  · simp [*]
  · simp_all
  · cases sliceTo 2 (toLowercase crateName).toList <;> simp_all

variable {toLowercase parse registryBase includePrereleases}

/-- The versions are sorted safely exactly if they are unmixed. -/
theorem orderedBy_crateRelease {crateName} {strings : List String} :
    OrderedBy (fun a b => b.version.cmp a.version) (strings.map (crateRelease parse crateName)) ↔
      Version.Unmixed parse {s | s ∈ strings} := by
  rw [← Version.cmp_trans_iff]
  constructor
  · intro h a ha b hb c hc hab hbc
    exact h.trans _ (mem_map_of_mem hc) _ (mem_map_of_mem hb) _ (mem_map_of_mem ha) hbc hab
  · refine fun h => ⟨fun _ _ _ _ => Version.cmp_swap, ?_⟩
    simp only [List.forall_mem_map]
    exact fun a ha b hb c hc hab hbc => h c hc b hb a ha hbc hab

/-- What a crate's request needs so that the fetch does not panic. -/
def Fetchable (toLowercase : String → String) (parse : String → Option V) (registryBase : String)
    (includePrereleases : Bool) (item : String × (String → IndexAnswer)) : Prop :=
  Indexable (toLowercase item.1) ∧
    ∀ url, sparseIndexUrl toLowercase registryBase item.1 = some url →
      ∀ versions, item.2 url = .body (.ok versions) →
        Version.Unmixed parse {s | s ∈ keptVersions includePrereleases versions}

theorem isSome_fetchCrateReleases {sort : ReleaseSort V} {crateName index} :
    (fetchCrateReleases toLowercase parse registryBase includePrereleases sort crateName
      index).isSome ↔
    Indexable (toLowercase crateName) ∧
      ∀ url, sparseIndexUrl toLowercase registryBase crateName = some url →
        ∀ versions, index url = .body (.ok versions) → (sort (fun a b => b.version.cmp a.version)
          ((keptVersions includePrereleases versions).map
            (crateRelease parse crateName))).isSome := by
  rw [← isSome_sparseIndexUrl toLowercase registryBase, fetchCrateReleases]
  cases sparseIndexUrl toLowercase registryBase crateName with
  | none => simp
  | some url =>
    simp only [Option.bind_some, isSome_some, true_and, Option.some.injEq, forall_eq']
    split <;> simp_all

/-- With a given sort, a batch is answered exactly if no fetch panics. -/
theorem batchFetch_answers {sort : ReleaseSort V} {items : List (String × (String → IndexAnswer))} :
    (∃ results,
        batchFetch toLowercase parse registryBase includePrereleases sort items = some results ∧
        ∀ completed, completed ~ results →
          completed.map (·.packageIdentifier) ~ items.map (·.1)) ↔
      ∀ item ∈ items, (fetchCrateReleases toLowercase parse registryBase includePrereleases sort
        item.1 item.2).isSome := by
  unfold batchFetch
  constructor
  · rintro ⟨results, hr, -⟩
    induction items generalizing results with
    | nil => simp
    | cons item items ih =>
      simp only [mapM_cons, bind_eq_bind, bind_eq_some_iff, map_eq_some_iff] at hr
      obtain ⟨_, ⟨_, hf, -⟩, rest, hre, -⟩ := hr
      exact forall_mem_cons.mpr ⟨isSome_iff_exists.mpr ⟨_, hf⟩, ih rest hre⟩
  · intro h
    induction items with
    | nil => exact ⟨[], rfl, fun _ hp => hp.map _⟩
    | cons item items ih =>
      obtain ⟨results, hr, hp⟩ := ih fun item h' => h item (mem_cons_of_mem _ h')
      obtain ⟨releases, hf⟩ := isSome_iff_exists.mp (h item mem_cons_self)
      refine ⟨⟨item.1, releases⟩ :: results, by simp [hf, hr], fun completed hc => ?_⟩
      exact (hc.map _).trans ((hp results .rfl).cons _)

/-- Whatever `slice::sort_by` does beyond its promise, and in whatever order the requests complete,
a batch is answered with one result for each item: this holds exactly if every name can be sliced
and the versions that the index gives are unmixed. -/
theorem batchFetch_answers_iff (toLowercase : String → String) (parse : String → Option V)
    (registryBase : String) (includePrereleases : Bool)
    (items : List (String × (String → IndexAnswer))) :
    (∀ sort : ReleaseSort V, SortsBy sort → ∃ results,
        batchFetch toLowercase parse registryBase includePrereleases sort items = some results ∧
        ∀ completed, completed ~ results →
          completed.map (·.packageIdentifier) ~ items.map (·.1)) ↔
      ∀ item ∈ items, Fetchable toLowercase parse registryBase includePrereleases item := by
  simp only [batchFetch_answers, isSome_fetchCrateReleases, Fetchable]
  constructor
  · intro h item hi
    obtain ⟨hn, hsor⟩ := h strictSort sortsBy_strictSort item hi
    refine ⟨hn, fun url hu versions ha => ?_⟩
    have hs := hsor url hu versions ha
    rw [strictSort, Option.isSome_ite] at hs
    exact orderedBy_crateRelease.1 hs
  · intro h sort hsort item hi
    refine ⟨(h item hi).1, fun url hu versions ha => ?_⟩
    obtain ⟨sorted, hso, -⟩ := hsort.sorted _ _
      (orderedBy_crateRelease.2 ((h item hi).2 url hu versions ha))
    exact isSome_iff_exists.2 ⟨sorted, hso⟩

/-- One strange name takes down the check of the others. -/
theorem batchFetch_panics :
    SortsBy (strictSort (α := CrateRelease Nat)) ∧
      batchFetch Text.toAsciiLowercase (fun _ => none) "https://index.crates.io" false
        (strictSort (α := CrateRelease Nat))
        [("serde", fun _ => .notFound), ("", fun _ => .notFound)] = none :=
  ⟨sortsBy_strictSort, rfl⟩

end Uptrakit.Plugin
