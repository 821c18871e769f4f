import Stratum.Search

/-!
# Where a search looks

A path is followed from stop to stop, and nothing but what stands at the stops decides where it
leads. A search looks at the paths of its directories and its bundle. So two file systems that agree
at the stops of these paths give the same search.
-/

namespace Stratum

namespace FileTree

/-- The places that a way passes from a place, both ends included. -/
def stops (place : List String) : List String → List (List String)
  | [] => [place]
  | name :: rest => place :: stops (if name = ".." then place.dropLast else place ++ [name]) rest

/-- The places on the way to a path. -/
def way (t : FileTree) (p : Path) : List (List String) :=
  stops (if p.isAbsolute then [] else t.working) p.parts

variable {t t' : FileTree} {place : List String} {names : List String} {p : Path}

/-- A way starts at its first stop. -/
theorem mem_stops_self : place ∈ stops place names := by
  cases names <;> exact List.mem_cons_self

/-- Trees that agree at a place have the same in the way of a name behind it. -/
theorem bar?_congr (h : t'.entry? place = t.entry? place) : t'.bar? place = t.bar? place := by
  unfold bar?
  rw [h]

/-- Trees that agree at the stops of a way lead to the same place. -/
theorem walk_congr (h : ∀ stop ∈ stops place names, t'.entry? stop = t.entry? stop) :
    t'.walk place names = t.walk place names := by
  induction names generalizing place with
  | nil => rfl
  | cons name rest ih =>
    obtain ⟨hplace, hrest⟩ := List.forall_mem_cons.mp h
    unfold walk
    rw [bar?_congr hplace]
    rcases t.bar? place with _ | o
    · by_cases hname : name = ".."
      · rw [if_pos hname] at hrest
        simp only [if_pos hname]
        exact ih hrest
      · rw [if_neg hname] at hrest
        simp only [if_neg hname, hrest _ mem_stops_self, ih hrest]
    · rfl

/-- Where a way leads is one of its stops. -/
theorem mem_stops_of_walk {last : List String} (h : t.walk place names = .ok last) :
    last ∈ stops place names := by
  induction names generalizing place with
  | nil =>
    obtain rfl : place = last := by simpa [walk] using h
    exact List.mem_cons_self
  | cons name rest ih =>
    refine List.mem_cons_of_mem place ?_
    unfold walk at h
    split at h
    · contradiction
    · by_cases hname : name = ".."
      · rw [if_pos hname] at h ⊢
        exact ih h
      · rw [if_neg hname] at h ⊢
        split at h
        · contradiction
        · split at h
          · contradiction
          · exact ih h

/-- Trees that agree on the way to a path have the same at its end. -/
theorem find_congr (hworking : t'.working = t.working)
    (h : ∀ stop ∈ t.way p, t'.entry? stop = t.entry? stop) : t'.find p = t.find p := by
  unfold find
  rw [hworking, walk_congr h]
  rcases hwalk : t.walk (if p.isAbsolute then [] else t.working) p.parts with o | last
  · rfl
  · dsimp only
    rw [h last (mem_stops_of_walk hwalk)]

/-- What may stand in the way of a path: nothing is there, a file, a refusal, too long a name or
path, or a null character. -/
inductive Blocks (p : Path) : Obstacle → Prop
  | absent : Blocks p .absent
  | notFolder : Blocks p .notFolder
  | refused (e : SystemError) : Blocks p (.refused e)
  | tooLong (h : pathLimit ≤ byteLength p.text ∨ ∃ name ∈ p.parts, nameLimit < byteLength name) :
      Blocks p .tooLong
  | nul (h : '\x00' ∈ p.text.toList) : Blocks p .nul

variable {o : Obstacle}

/-- In the way of a name is that nothing is before it, or a file, or a refusal. -/
theorem blocks_of_bar? (h : t.bar? place = some o) : Blocks p o := by
  unfold bar? at h
  split at h
  case h_1 =>
    obtain rfl := Option.some.inj h
    exact .absent
  case h_2 entry _ =>
    cases entry with
    | folder entering =>
      obtain ⟨e, -, rfl⟩ := Option.map_eq_some_iff.mp h
      exact .refused e
    | file | device =>
      obtain rfl := Option.some.inj h
      exact .notFolder

/-- What stands in the way of some of the names of a path stands in the way of the path. -/
theorem blocks_of_walk (hnames : ∀ name ∈ names, name ∈ p.parts)
    (h : t.walk place names = .error o) : Blocks p o := by
  induction names generalizing place with
  | nil => cases h
  | cons name rest ih =>
    obtain ⟨hname, hrest⟩ := List.forall_mem_cons.mp hnames
    unfold walk at h
    split at h
    case h_1 hbar =>
      obtain rfl := Except.error.inj h
      exact blocks_of_bar? hbar
    case h_2 =>
      split at h
      · exact ih hrest h
      · split at h
        case isTrue hlong =>
          obtain rfl := Except.error.inj h
          exact .tooLong (.inr ⟨name, hname, hlong⟩)
        case isFalse =>
          split at h
          · obtain rfl := Except.error.inj h
            exact .absent
          · exact ih hrest h

/-- What is found in the way of a path. -/
theorem blocks_of_find (h : t.find p = .error o) : Blocks p o := by
  unfold find at h
  dsimp only at h
  split at h
  case isTrue hnul =>
    obtain rfl := Except.error.inj h
    exact .nul (by simpa using hnul)
  case isFalse =>
    split at h
    case isTrue hlong =>
      obtain rfl := Except.error.inj h
      exact .tooLong (.inl hlong)
    case isFalse =>
      split at h
      case h_1 hwalk =>
        obtain rfl := Except.error.inj h
        exact blocks_of_walk (fun _ hname => hname) hwalk
      case h_2 =>
        split at h
        · cases h
        · obtain rfl := Except.error.inj h
          exact .absent

/-- Trees that agree on the way to a path give the same when the path is opened. -/
theorem open?_congr (h : t'.find p = t.find p) : t'.open? p = t.open? p := by
  unfold open?
  rw [h]

end FileTree

/-- The names by which a resource of a bundle is reached. -/
def Bundle.resourceNames (relative : String) : List String :=
  (names relative).filter (· != "")

namespace Search

/-- The files of the bundle that a search for a file looks at. -/
def relatives (s : Search) (name hint : String) : List String :=
  (if !isAbsoluteHint hint && !hint.isEmpty && s.dirs.any (·.isEmpty) then
    [stripSlashes hint ++ "/" ++ name] else []) ++ [name, defaultFolder ++ "/" ++ name]

/-- The paths in the directories that a search for a file looks at. -/
def externalPaths (s : Search) (name hint : String) : List Path :=
  if isAbsoluteHint hint then [(Path.ofText hint).join (.ofText name)]
  else (s.dirs.filter (!·.isEmpty)).map fun dir => (directory dir hint).join (.ofText name)

/-- The paths that a search for a file looks at. -/
def paths (s : Search) (name hint : String) : List Path :=
  s.externalPaths name hint ++
    match s.bundle with
    | some (.folder base) => (s.relatives name hint).map (Bundle.pathOf base)
    | _ => []

/-- Two bundles are one folder, or have the same resources at some files. -/
inductive SameResources (files : List String) : Option Bundle → Option Bundle → Prop
  | none : SameResources files none none
  | folder (base : Path) : SameResources files (some (.folder base)) (some (.folder base))
  | resources (held held' : List (List String × Resource))
      (h : ∀ relative ∈ files, held'.lookup (Bundle.resourceNames relative) =
        held.lookup (Bundle.resourceNames relative)) :
      SameResources files (some (.resources held)) (some (.resources held'))

/-- Two searches in two file systems have the same directories and the same bundle, and what they
look at for a file is the same in both. -/
structure SameWays (s : Search) (t : FileTree) (s' : Search) (t' : FileTree) (name hint : String) :
    Prop where
  /-- They have the same directories in the same order. -/
  dirs : s'.dirs = s.dirs
  /-- Relative paths start in the same folder. -/
  working : t'.working = t.working
  /-- Their bundles are the same, as far as they are looked at. -/
  resources : SameResources (s.relatives name hint) s.bundle s'.bundle
  /-- The same stands wherever a way to one of the paths passes. -/
  stops : ∀ p ∈ s.paths name hint, ∀ stop ∈ t.way p, t'.entry? stop = t.entry? stop

variable {s s' : Search} {t t' : FileTree} {name hint : String} {p : Path} {relative : String}

/-- A path that both look at has the same at its end. -/
theorem SameWays.find (h : SameWays s t s' t' name hint) (hp : p ∈ s.paths name hint) :
    t'.find p = t.find p :=
  FileTree.find_congr h.working (h.stops p hp)

/-- What is the same at a path is opened in the same way. -/
theorem openFile_congr (h : t'.find p = t.find p) : openFile t' p = openFile t p := by
  unfold openFile
  rw [FileTree.open?_congr h]

/-- What is the same at a path is there or not there in both. -/
theorem isFile_congr (h : t'.find p = t.find p) : isFile t' p = isFile t p := by
  unfold isFile
  rw [h]

/-- A file of the bundle that both look at is opened in the same way. -/
theorem openBundled_congr {files : List String} {bundle bundle' : Option Bundle}
    (h : SameResources files bundle bundle') (hr : relative ∈ files)
    (hfind : ∀ base, bundle = some (.folder base) →
      t'.find (Bundle.pathOf base relative) = t.find (Bundle.pathOf base relative)) :
    openBundled t' bundle' relative = openBundled t bundle relative := by
  cases h with
  | none => rfl
  | folder base =>
    have hbase := hfind base rfl
    simp only [openBundled, isFile_congr hbase, FileTree.open?_congr hbase]
  | resources held held' hheld =>
    have hlookup := hheld relative hr
    unfold Bundle.resourceNames at hlookup
    simp only [openBundled, hlookup]

/-- A file of the bundle that both look at is opened in the same way by both. -/
theorem SameWays.openBundled (h : SameWays s t s' t' name hint)
    (hr : relative ∈ s.relatives name hint) :
    openBundled t' s'.bundle relative = openBundled t s.bundle relative := by
  refine openBundled_congr h.resources hr fun base hbase => h.find ?_
  unfold paths
  rw [hbase]
  exact List.mem_append_right _ (List.mem_map_of_mem hr)

/-- A directory that both look into has the same for them. -/
theorem SameWays.inDirectory (h : SameWays s t s' t' name hint) {dir : Path}
    (hdir : dir.join (.ofText name) ∈ s.externalPaths name hint) :
    inDirectory t' name dir = inDirectory t name dir := by
  unfold Search.inDirectory
  rw [openFile_congr (h.find (List.mem_append_left _ hdir))]

/-- What both look at in the bundle in place of a directory is the same for them. -/
theorem SameWays.inPlaceOfDirectory (h : SameWays s t s' t' name hint)
    (hhint : isAbsoluteHint hint = false) (hdirs : s.dirs.any (·.isEmpty) = true) :
    inPlaceOfDirectory t' s'.bundle name hint = inPlaceOfDirectory t s.bundle name hint := by
  unfold Search.inPlaceOfDirectory
  by_cases hnone : hint.isEmpty = true
  · rw [if_pos hnone, if_pos hnone]
  · have hr : stripSlashes hint ++ "/" ++ name ∈ s.relatives name hint := by
      simp [relatives, hhint, hnone, hdirs]
    rw [if_neg hnone, if_neg hnone]
    dsimp only
    rw [h.openBundled hr]

/-- The searches in the directories are the same. -/
theorem SameWays.external (h : SameWays s t s' t' name hint) :
    s'.external t' name hint = s.external t name hint := by
  unfold Search.external
  rw [h.dirs]
  by_cases hhint : isAbsoluteHint hint = true
  · have hdir : (Path.ofText hint).join (.ofText name) ∈ s.externalPaths name hint := by
      unfold externalPaths
      rw [if_pos hhint]
      exact List.mem_cons_self
    rw [if_pos hhint, if_pos hhint, h.inDirectory hdir]
  · rw [if_neg hhint, if_neg hhint]
    refine List.map_congr_left fun dir hdir => ?_
    by_cases hempty : dir.isEmpty = true
    · have hany : s.dirs.any (·.isEmpty) = true := List.any_eq_true.mpr ⟨dir, hdir, hempty⟩
      rw [if_pos hempty, if_pos hempty, h.inPlaceOfDirectory (by simpa using hhint) hany]
    · have hpath : (directory dir hint).join (.ofText name) ∈ s.externalPaths name hint := by
        unfold externalPaths
        rw [if_neg hhint]
        exact List.mem_map_of_mem (List.mem_filter.mpr ⟨hdir, by simp [hempty]⟩)
      rw [if_neg hempty, if_neg hempty, h.inDirectory hpath]

/-- Two searches that look at the same are the same. -/
theorem SameWays.locate (h : SameWays s t s' t' name hint) :
    s'.locate t' name hint = s.locate t name hint := by
  have hbundle : name ∈ s.relatives name hint := by simp [relatives]
  have hdefaults : defaultFolder ++ "/" ++ name ∈ s.relatives name hint := by simp [relatives]
  unfold Search.locate inBundle inDefaults
  rw [h.external, h.openBundled hbundle, h.openBundled hdefaults]

end Search
end Stratum
