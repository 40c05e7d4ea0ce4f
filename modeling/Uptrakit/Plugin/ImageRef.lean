import Uptrakit.Text.Basic

/-!
# Docker image references

`ImageRef::from_str` and `full_pkg_id` (`crates/plugins/releases/docker/src/image_ref.rs`), for
identifiers `image:tag#container`.  The identifier printed for an accepted text is read as the same
reference (`fromStr_fullPkgId`).  Segments `..` are refused before the tag is cut off, so that the
last segment of a repository is `..` exactly if that of the text begins with `..:`
(`dots_notMem_repository_iff`, `climbs`).
-/

namespace Uptrakit.Plugin.Docker

open List Text

/-- A parsed image reference, its texts as lists of characters. -/
structure ImageRef where
  (registry repository tag image fullRef : List Char)
  containerName : Option (List Char)
  deriving DecidableEq

/-- `ParseImageRefError::Invalid`, as its message. -/
def invalid {α} (reason : String) : Except String α :=
  .error ("invalid image reference: " ++ reason)

/-- `str::find` for a character, with the slices before and after the place that is found. -/
def splitOnce (c : Char) : List Char → Option (List Char × List Char)
  | [] => none
  | d :: s =>
    if d = c then some ([], s) else (splitOnce c s).map fun (front, rest) => (d :: front, rest)

def validateContainerName (name : List Char) : Except String Unit :=
  match name with
  | [] => invalid "container name after '#' must not be empty"
  | first :: chars =>
    let size := len (.ofList name)
    if size > 253 then
      invalid s!"container name exceeds maximum length of 253 characters (got {size})"
    else if name.any isWhitespace then invalid "container name must not contain whitespace"
    else if '/' ∈ name ∨ '\\' ∈ name then
      invalid "container name must not contain path separators"
    else if !first.isAlphanum then
      invalid s!"container name must start with a letter or digit, got '{first}'"
    else
      match chars.find? fun c => !c.isAlphanum && c ≠ '_' && c ≠ '.' && c ≠ '-' with
      | some c =>
        invalid (s!"container name contains invalid character '{c}': " ++
          "only letters, digits, '_', '.', and '-' are allowed")
      | none => .ok ()

def dir (s : List Char) : List Char := s.rdropWhile (· != '/')

def lastSegment (s : List Char) : List Char := s.rtakeWhile (· != '/')

def latest : List Char := "latest".toList

def splitImageTag (s : List Char) : List Char × List Char :=
  match splitOnce ':' (lastSegment s) with
  | some (name, tag) => (dir s ++ name, tag)
  | none => (s, latest)

def isRegistry (component : List Char) : Bool :=
  '.' ∈ component ∨ ':' ∈ component ∨ component = "localhost".toList

def inferRegistry (image : List Char) : List Char :=
  match splitOnce '/' image with
  | some (first, _) => if isRegistry first then first else "registry-1.docker.io".toList
  | none => "registry-1.docker.io".toList

def resolveRepository (image : List Char) : List Char :=
  match splitOnce '/' image with
  | some (first, rest) => if isRegistry first then rest else image
  | none => "library/".toList ++ image

def dots : List Char := "..".toList

/-- What `from_str` returns for an image part that passes its checks. -/
def ImageRef.of (imagePart : List Char) (containerName : Option (List Char)) : ImageRef :=
  let (image, tag) := splitImageTag imagePart
  { registry := inferRegistry image
    repository := resolveRepository image
    tag
    image
    fullRef := image ++ ':' :: tag
    containerName }

/-- `from_str` after the container name. -/
def ofImagePart (imagePart : List Char) (containerName : Option (List Char)) :
    Except String ImageRef :=
  if imagePart = [] then invalid "image reference part must not be empty"
  else if ['/', '/'] <:+: imagePart then invalid "image reference must not contain '//'"
  else if (imagePart.splitOn '/').any (· == dots) then
    invalid "image reference segments must not be '..'"
  else if imagePart.any isWhitespace then invalid "image reference must not contain whitespace"
  else .ok (.of imagePart containerName)

/-- What stands before the first number sign, and the container name behind it. -/
def splitContainer (s : List Char) : List Char × Option (List Char) :=
  match splitOnce '#' s with
  | some (imagePart, name) => (imagePart, some name)
  | none => (s, none)

def fromStr (s : String) : Except String ImageRef :=
  let s := (trim s).toList
  if s = [] then invalid "image reference must not be empty"
  else do
    let (imagePart, containerName) := splitContainer s
    containerName.elim (.ok ()) validateContainerName
    ofImagePart imagePart containerName

def ImageRef.fullPkgId (r : ImageRef) : String :=
  .ofList <| match r.containerName with
    | some name => r.fullRef ++ '#' :: name
    | none => r.fullRef

/-! ## Cuts of a text -/

variable {c : Char} {s front rest image name tag part : List Char}

theorem splitOnce_eq_some :
    splitOnce c s = some (front, rest) ↔ s = front ++ c :: rest ∧ c ∉ front := by
  induction s generalizing front with
  | nil => simp [splitOnce]
  | cons d s ih =>
    by_cases hd : d = c
    · cases front <;> simp [splitOnce, hd]
      grind
    · cases front <;> simp [splitOnce, hd]
      grind

theorem splitOnce_eq_none : splitOnce c s = none ↔ c ∉ s := by
  induction s with
  | nil => simp [splitOnce]
  | cons d s ih =>
    by_cases hd : d = c
    · simp [splitOnce, hd]
    · simp [splitOnce, hd, ih, Ne.symm hd]

theorem cut_append (h : '/' ∉ rest) :
    dir (s ++ rest) = dir s ∧ lastSegment (s ++ rest) = lastSegment s ++ rest := by
  have hr : ∀ d ∈ rest.reverse, d != '/' := by
    simpa using fun d hd => ne_of_mem_of_not_mem hd h
  simp [dir, lastSegment, rdropWhile, rtakeWhile, dropWhile_append_of_pos hr,
    takeWhile_append_of_pos hr]

theorem dir_append_lastSegment (s : List Char) : dir s ++ lastSegment s = s :=
  rdropWhile_append_rtakeWhile

theorem notMem_lastSegment (s : List Char) : '/' ∉ lastSegment s := by
  intro h
  simpa using mem_rtakeWhile_imp h

/-! ## Accepted texts -/

/-- What `from_str` checks of an image part. -/
@[mk_iff]
structure IsImagePart (part : List Char) : Prop where
  ne_nil : part ≠ []
  single : ¬ ['/', '/'] <:+: part
  noDots : dots ∉ part.splitOn '/'
  dense : part.any isWhitespace = false

theorem ofImagePart_eq_ok {containerName r} :
    ofImagePart part containerName = .ok r ↔ IsImagePart part ∧ .of part containerName = r := by
  rw [isImagePart_iff]
  fun_cases ofImagePart part containerName <;> simp_all [invalid]

/-- The segments of an image part, with any last segment. -/
theorem IsImagePart.exists_segments (h : IsImagePart part) :
    ∃ segments, dots ∉ segments ∧ dots ≠ lastSegment part ∧
      ∀ x, '/' ∉ x → (dir part ++ x).splitOn '/' = segments ++ [x] := by
  obtain ⟨segments, hs⟩ :
      ∃ segments, ∀ x, '/' ∉ x → (dir part ++ x).splitOn '/' = segments ++ [x] := by
    by_cases hd : dir part = []
    · exact ⟨[], fun x hx => by rw [hd, nil_append, splitOn_eq_singleton hx, nil_append]⟩
    · have hsl : (dir part).getLast hd = '/' := by
        simpa [dir] using rdropWhile_last_not (· != '/') part hd
      refine ⟨(dir part).dropLast.splitOn '/', fun x hx => ?_⟩
      rw [← dropLast_append_getLast hd, hsl, append_assoc, singleton_append,
        splitOn_append_cons_self, splitOn_eq_singleton hx, dropLast_concat]
  have hn := h.noDots
  rw [← dir_append_lastSegment part, hs _ (notMem_lastSegment part), mem_append, not_or,
    mem_singleton] at hn
  exact ⟨segments, hn.1, hn.2, hs⟩

/-- Only a missing tag is added. -/
theorem splitImageTag_fullRef (part : List Char) :
    let cut := splitImageTag part
    let full := cut.1 ++ ':' :: cut.2
    splitImageTag full = cut ∧ (full = part ∨ full = part ++ ':' :: latest) := by
  fun_cases splitImageTag part with
  | case1 name tag hc =>
    have hp : dir part ++ name ++ ':' :: tag = part := by
      rw [append_assoc, ← (splitOnce_eq_some.mp hc).1, dir_append_lastSegment]
    exact ⟨by simp only [hp, splitImageTag, hc], .inl hp⟩
  | case2 hc =>
    have hl : splitOnce ':' (lastSegment part ++ ':' :: latest) = some (_, latest) :=
      splitOnce_eq_some.mpr ⟨rfl, splitOnce_eq_none.mp hc⟩
    obtain ⟨hd, hla⟩ := cut_append (s := part) (show '/' ∉ ':' :: latest by decide)
    refine ⟨?_, .inr rfl⟩
    simp only [splitImageTag, hla, hd, hl, dir_append_lastSegment]

/-- Behind a text, a text without slashes makes no double slash. -/
theorem doubleSlash_append (h : '/' ∉ rest) (hd : ['/', '/'] <:+: s ++ rest) :
    ['/', '/'] <:+: s := by
  induction rest using reverseRecOn with
  | nil => simpa using hd
  | append_singleton rest d ih =>
    simp only [mem_append, not_or] at h
    rw [← append_assoc, infix_concat_iff, suffix_concat_iff] at hd
    obtain (hn | ⟨front, hf, -⟩) | hd := hd
    · cases hn
    · exact absurd (by simpa using congrArg getLast? hf) h.2
    · exact ih h.1 hd

theorem IsImagePart.append_latest (h : IsImagePart part) :
    IsImagePart (part ++ ':' :: latest) := by
  obtain ⟨segments, hn, -, hs⟩ := h.exists_segments
  have hsl : '/' ∉ ':' :: latest := by decide
  refine ⟨by simp, fun hd => h.single (doubleSlash_append hsl hd), ?_, ?_⟩
  · rw [← dir_append_lastSegment part, append_assoc,
      hs _ (not_mem_append (notMem_lastSegment part) hsl), mem_append, mem_singleton,
      not_or]
    refine ⟨hn, fun hdo => ?_⟩
    have hc : ':' ∈ dots := by simp [hdo]
    exact absurd hc (by decide)
  · rw [any_append, h.dense]
    decide

/-- The texts that are accepted. -/
theorem fromStr_eq_ok {s : String} {r} :
    fromStr s = .ok r ↔
      let cut := splitContainer (trim s).toList
      cut.2.elim (.ok ()) validateContainerName = .ok () ∧ IsImagePart cut.1 ∧
        ImageRef.of cut.1 cut.2 = r := by
  unfold fromStr
  dsimp only
  split
  · next hn =>
    rw [hn]
    exact iff_of_false nofun fun h => h.2.1.ne_nil rfl
  · generalize splitContainer (trim s).toList = cut
    cases h : cut.2.elim (.ok ()) validateContainerName with
    | error => exact iff_of_false nofun nofun
    | ok =>
      rw [← ofImagePart_eq_ok, eq_self, true_and]
      rfl

theorem trim_ofList (h : s.any isWhitespace = false) : (trim (.ofList s)).toList = s := by
  rw [any_eq_false] at h
  rw [trim, String.toList_ofList, String.toList_ofList, dropWhile_eq_self_iff.mpr,
    rdropWhile_eq_self_iff]
  · exact fun hne => h _ (getLast_mem hne)
  · exact fun hp => h _ (get_mem s _)

theorem any_of_validateContainerName (h : validateContainerName name = .ok ()) :
    name.any isWhitespace = false := by
  unfold validateContainerName at h
  split at h
  · rfl
  · dsimp only at h
    split_ifs at h <;> simp_all [invalid]

theorem notMem_splitContainer (s : List Char) : '#' ∉ (splitContainer s).1 := by
  fun_cases splitContainer s with
  | case1 _ _ hc => exact (splitOnce_eq_some.mp hc).2
  | case2 hc => exact splitOnce_eq_none.mp hc

theorem splitContainer_fullPkgId {r : ImageRef} (hp : IsImagePart r.fullRef)
    (hs : '#' ∉ r.fullRef)
    (hn : r.containerName.elim (.ok ()) validateContainerName = .ok ()) :
    splitContainer (trim r.fullPkgId).toList = (r.fullRef, r.containerName) := by
  obtain ⟨_, _, _, _, full, _ | name⟩ := r
  · rw [ImageRef.fullPkgId, trim_ofList hp.dense, splitContainer]
    simp only [splitOnce_eq_none.mpr hs]
  · have hd : (full ++ '#' :: name).any isWhitespace = false := by
      rw [any_append, hp.dense, any_cons, any_of_validateContainerName hn]
      decide
    rw [ImageRef.fullPkgId, trim_ofList hd, splitContainer]
    simp only [splitOnce_eq_some.mpr ⟨rfl, hs⟩]

/-- The full package id of a parsed reference parses to that reference. -/
theorem fromStr_fullPkgId {s : String} {r} (h : fromStr s = .ok r) :
    fromStr r.fullPkgId = .ok r := by
  obtain ⟨hn, hp, rfl⟩ := fromStr_eq_ok.mp h
  have hs := notMem_splitContainer (trim s).toList
  obtain ⟨hsa, hf⟩ := splitImageTag_fullRef (splitContainer (trim s).toList).1
  generalize splitContainer (trim s).toList = cut at hn hp hs hsa hf ⊢
  have hne : IsImagePart (ImageRef.of cut.1 cut.2).fullRef ∧
      '#' ∉ (ImageRef.of cut.1 cut.2).fullRef := by
    simp only [ImageRef.of]
    obtain hf | hf := hf
    · rw [hf]
      exact ⟨hp, hs⟩
    · rw [hf]
      exact ⟨hp.append_latest, not_mem_append hs (by decide)⟩
  rw [fromStr_eq_ok, splitContainer_fullPkgId hne.1 hne.2 hn]
  refine ⟨hn, hne.1, ?_⟩
  simp only [ImageRef.of, hsa]

theorem fromStr_fullPkgId_nginx :
    fromStr (ImageRef.of "nginx".toList (some "web".toList)).fullPkgId =
      .ok (.of "nginx".toList (some "web".toList)) :=
  fromStr_fullPkgId (s := " nginx#web") (by decide +kernel)

/-- The repository keeps the last segment, and drops no other `..`. -/
theorem dots_mem_resolveRepository_iff {segments} (h : image.splitOn '/' = segments ++ [name])
    (hd : dots ∉ segments) : dots ∈ (resolveRepository image).splitOn '/' ↔ dots = name := by
  fun_cases resolveRepository image with
  | case1 first rest hc =>
    obtain ⟨rfl, hf⟩ := splitOnce_eq_some.mp hc
    rw [splitOn_append_cons_self, splitOn_eq_singleton hf] at h
    cases segments with
    | nil => simp_all
    | cons => simp_all
  | case2 => simp_all
  | case3 =>
    have hl : ("library/".toList ++ image).splitOn '/' = ["library".toList] ++ _ :=
      splitOn_append_cons_self "library".toList image
    simp_all [dots]

/-- No segment of the repository is `..` exactly if the last segment of the image part does not
begin with `..:`. -/
theorem dots_notMem_repository_iff {s : String} {r} (h : fromStr s = .ok r) :
    dots ∉ r.repository.splitOn '/' ↔
      ¬ dots ++ [':'] <+: lastSegment (splitContainer (trim s).toList).1 := by
  obtain ⟨-, hp, rfl⟩ := fromStr_eq_ok.mp h
  generalize splitContainer (trim s).toList = cut at hp ⊢
  obtain ⟨part, containerName⟩ := cut
  obtain ⟨segments, hn, hne, hs⟩ := hp.exists_segments
  have hl := notMem_lastSegment part
  have hno {s} (hc : ':' ∉ s) : ¬ dots ++ [':'] <+: s := fun hpr =>
    hc (hpr.subset (by simp))
  rw [ImageRef.of]
  fun_cases splitImageTag part with
  | case1 name tag hcu =>
    obtain ⟨hcu, hc⟩ := splitOnce_eq_some.mp hcu
    rw [hcu, mem_append, not_or] at hl
    rw [dots_mem_resolveRepository_iff (hs name hl.1) hn, hcu,
      segment_prefix_iff (by decide), or_iff_left (hno hc), eq_comm]
  | case2 hcu =>
    have hi := hs _ hl
    rw [dir_append_lastSegment] at hi
    rw [dots_mem_resolveRepository_iff hi hn]
    exact iff_of_true hne (hno (splitOnce_eq_none.mp hcu))

/-- A repository with a path segment `..` is accepted. -/
theorem climbs :
    ∃ r, fromStr "foo/..:v1" = .ok r ∧ dots ∈ r.repository.splitOn '/' :=
  ⟨.of "foo/..:v1".toList none, by decide +kernel, by decide +kernel⟩

theorem dots_notMem_repository_nginx :
    dots ∉ (ImageRef.of "nginx".toList none).repository.splitOn '/' :=
  (dots_notMem_repository_iff (s := "nginx") (by decide +kernel)).mpr (by decide +kernel)

end Uptrakit.Plugin.Docker
