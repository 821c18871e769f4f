import Stratum.Proofs.Search.Telling
import Stratum.Proofs.Search.Ways
import Stratum.Proofs.Text.Pieces

/-!
# The places of a search

A search as a list of places, in the order in which they are looked at: for each directory a path,
or a place under the bundle if the directory is empty and there is a hint, then the bundle and its
folder for defaults. A look at a place finds a stream or nothing, or fails. What a search finds is
what the first of its looks comes to that finds a stream or fails (`Search.found_eq_firstLook`).
-/

namespace Stratum

/-! ## Pieces between slashes -/

/-- The pieces of a text between its slashes, as far as they are kept. -/
def pieces (keep : List Char → Bool) (cs : List Char) : List (List Char) :=
  (cs.splitOn '/').filter keep

section Pieces

variable {keep : List Char → Bool}

/-- Of two texts with a slash between them come the pieces of the one and then those of the
other. -/
theorem pieces_append (keep : List Char → Bool) (cs ds : List Char) :
    pieces keep (cs ++ '/' :: ds) = pieces keep cs ++ pieces keep ds := by
  rw [pieces, List.splitOn_append_cons_self, List.filter_append, pieces, pieces]

/-- An empty text has no pieces if empty pieces are dropped. -/
theorem pieces_nil (hkeep : keep [] = false) : pieces keep [] = [] := by
  simp [pieces, hkeep]

/-- Slashes at the start make no pieces. -/
theorem pieces_dropWhile (hkeep : keep [] = false) (cs : List Char) :
    pieces keep (cs.dropWhile (· == '/')) = pieces keep cs := by
  induction cs with
  | nil => rfl
  | cons c cs ih =>
    by_cases hc : c = '/'
    · have hslash := pieces_append keep [] cs
      rw [pieces_nil hkeep] at hslash
      subst hc
      rw [List.dropWhile_cons_of_pos (by simp), ih]
      exact hslash.symm
    · rw [List.dropWhile_cons_of_neg (by simpa using hc)]

/-- Slashes at the end make no pieces. -/
theorem pieces_dropWhile_reverse (hkeep : keep [] = false) (cs : List Char) :
    pieces keep (cs.dropWhile (· == '/')).reverse = pieces keep cs.reverse := by
  induction cs with
  | nil => rfl
  | cons c cs ih =>
    by_cases hc : c = '/'
    · subst hc
      rw [List.dropWhile_cons_of_pos (by simp), ih, List.reverse_cons, pieces_append,
        pieces_nil hkeep, List.append_nil]
    · rw [List.dropWhile_cons_of_neg (by simpa using hc)]

/-- The slashes at the ends of a text make no pieces. -/
theorem pieces_stripSlashes (hkeep : keep [] = false) (s : String) :
    pieces keep (Search.stripSlashes s).toList = pieces keep s.toList := by
  unfold Search.stripSlashes
  dsimp only
  rw [String.toList_ofList, pieces_dropWhile_reverse hkeep, List.reverse_reverse,
    pieces_dropWhile hkeep]

end Pieces

/-! ## Places under a bundle -/

namespace Bundle

/-- A name without slashes as a path: relative, and with at most one part. -/
theorem ofText_of_not_mem {name : List Char} (h : '/' ∉ name) :
    Path.ofText (String.ofList name) = ⟨0, ([name].filter Path.isPart).map String.ofList⟩ := by
  have hslashes : name.takeWhile (· == '/') = [] := by
    cases name with
    | nil => rfl
    | cons c cs => exact List.takeWhile_cons_of_neg (by simpa using fun hc => h (by simp [hc]))
  unfold Path.ofText
  dsimp only
  rw [String.toList_ofList, List.splitOn_eq_singleton h, hslashes]
  rfl

/-- A folder reached by names one after the other has their parts behind its own. -/
theorem foldl_join (base : Path) {names : List (List Char)} (h : ∀ name ∈ names, '/' ∉ name) :
    (names.map String.ofList).foldl (fun p name => p.join (.ofText name)) base =
      ⟨base.slashes, base.parts ++ (names.filter Path.isPart).map String.ofList⟩ := by
  induction names generalizing base with
  | nil => simp
  | cons name names ih =>
    obtain ⟨hname, hnames⟩ := List.forall_mem_cons.mp h
    have hjoin : base.join (Path.ofText (String.ofList name)) =
        ⟨base.slashes, base.parts ++ ([name].filter Path.isPart).map String.ofList⟩ := by
      rw [ofText_of_not_mem hname]
      rfl
    rw [List.map_cons, List.foldl_cons, hjoin, ih _ hnames, List.append_assoc, ← List.map_append,
      ← List.filter_append]
    rfl

/-- The path of a relative file in a folder: the parts of the file behind those of the folder, also
if it is written with a slash at its start. -/
theorem pathOf_eq (base : Path) (relative : String) :
    pathOf base relative = ⟨base.slashes, base.parts ++ (Path.ofText relative).parts⟩ :=
  foldl_join base fun _ => Text.not_mem_of_mem_splitOn

/-- The parts of a path are the pieces of its text that are parts. -/
theorem parts_ofText (s : String) :
    (Path.ofText s).parts = (pieces Path.isPart s.toList).map String.ofList :=
  rfl

/-- The names of a resource are the pieces of its text that are not empty. -/
theorem resourceNames_eq (relative : String) : resourceNames relative =
    (pieces (fun piece => String.ofList piece != "") relative.toList).map String.ofList :=
  List.filter_map

end Bundle

/-- A place where a search looks for a file: a path, a path in the folder of a bundle, or the names
of a resource. -/
inductive Candidate
  | file (path : Path)
  | bundled (path : Path)
  | resource (names : List String)
  deriving DecidableEq

namespace Bundle

/-- The place under a bundle that texts lead to, one behind the other. Each of them counts as
relative. -/
def under (texts : List String) : Bundle → Candidate
  | folder base =>
    .bundled ⟨base.slashes, base.parts ++ texts.flatMap fun s => (Path.ofText s).parts⟩
  | resources _ => .resource (texts.flatMap resourceNames)

/-- The place that a relative file has under a bundle. -/
def placeOf (relative : String) : Bundle → Candidate
  | folder base => .bundled (pathOf base relative)
  | resources _ => .resource (resourceNames relative)

/-- A relative file is under the bundle where its text leads to. -/
theorem placeOf_eq (bundle : Bundle) (relative : String) :
    bundle.placeOf relative = bundle.under [relative] := by
  cases bundle with
  | folder base =>
    rw [placeOf, pathOf_eq]
    simp [under]
  | resources held => simp [placeOf, under]

/-- Two texts with a slash between them lead to where they lead one behind the other. -/
theorem under_append (bundle : Bundle) (first second : String) :
    bundle.under [first ++ "/" ++ second] = bundle.under [first, second] := by
  have hchars : (first ++ "/" ++ second).toList = first.toList ++ '/' :: second.toList := by
    simp
  cases bundle with
  | folder base =>
    have hparts : (Path.ofText (first ++ "/" ++ second)).parts =
        (Path.ofText first).parts ++ (Path.ofText second).parts := by
      rw [parts_ofText, hchars, pieces_append, List.map_append, ← parts_ofText, ← parts_ofText]
    simp [under, hparts]
  | resources held =>
    have hnames : resourceNames (first ++ "/" ++ second) =
        resourceNames first ++ resourceNames second := by
      rw [resourceNames_eq, hchars, pieces_append, List.map_append, ← resourceNames_eq,
        ← resourceNames_eq]
    simp [under, hnames]

/-- The slashes at the ends of a text do not matter to where it leads. -/
theorem under_stripSlashes (bundle : Bundle) (first second : String) :
    bundle.under [Search.stripSlashes first, second] = bundle.under [first, second] := by
  cases bundle with
  | folder base =>
    have hparts : (Path.ofText (Search.stripSlashes first)).parts = (Path.ofText first).parts := by
      rw [parts_ofText, pieces_stripSlashes rfl, ← parts_ofText]
    simp [under, hparts]
  | resources held =>
    have hnames : resourceNames (Search.stripSlashes first) = resourceNames first := by
      rw [resourceNames_eq, pieces_stripSlashes rfl, ← resourceNames_eq]
    simp [under, hnames]

end Bundle

/-! ## Looking -/

/-- The refusal for want of permission. -/
def SystemError.denied : SystemError := ⟨13, "Permission denied", by decide⟩

namespace Candidate

/-- The stream of a place that opens. In the folder of a bundle it has to be a file. -/
def stream? (t : FileTree) (bundle : Option Bundle) : Candidate → Option Stream
  | file p => (t.open? p).toOption.map (Stream.ofFile p)
  | bundled p =>
    if (t.find p).toOption.any Entry.isFile then (t.open? p).toOption.map (Stream.ofFile p)
    else none
  | resource names =>
    match bundle with
    | some (.resources held) =>
      ((held.lookup names).filter (·.openRefusal.isNone)).map Stream.ofResource
    | _ => none

/-- The failure that a look at a place ends with: a path with a null character in it fails to be
opened, and a path in the folder of a bundle fails to be asked whether it is a file if the obstacle
in its way is no answer to that. -/
def failure? (t : FileTree) : Candidate → Option Failure
  | file p => if t.find p matches .error .nul then some .nulInPath else none
  | bundled p =>
    match t.find p with
    | .ok _ => none
    | .error o =>
      if Search.isOverlooked o then none else (FileTree.refusal? p o).map .refused
  | resource _ => none

/-- What a look at a place comes to: its failure, or its stream if it has one. -/
def look (t : FileTree) (bundle : Option Bundle) (c : Candidate) : Except Failure (Option Stream) :=
  match c.failure? t with
  | some e => .error e
  | none => .ok (c.stream? t bundle)

/-- What looks at places come to, one after the other: the first of them that does not find nothing
is the last one. -/
def firstLook (t : FileTree) (bundle : Option Bundle) :
    List Candidate → Except Failure (Option Stream)
  | [] => .ok none
  | c :: rest =>
    match c.look t bundle with
    | .ok none => firstLook t bundle rest
    | outcome => outcome

/-- Looks at the places of two lists: those of the second are made if the first finds nothing. -/
theorem firstLook_append (t : FileTree) (bundle : Option Bundle) (cs ds : List Candidate) :
    firstLook t bundle (cs ++ ds) = match firstLook t bundle cs with
      | .ok none => firstLook t bundle ds
      | outcome => outcome := by
  induction cs with
  | nil => rfl
  | cons c cs ih =>
    rw [List.cons_append, firstLook, firstLook]
    rcases c.look t bundle with e | _ | found
    · rfl
    · exact ih
    · rfl

/-- A look at a single place. -/
theorem firstLook_singleton (t : FileTree) (bundle : Option Bundle) (c : Candidate) :
    firstLook t bundle [c] = c.look t bundle := by
  unfold firstLook
  rcases c.look t bundle with e | _ | found <;> rfl

end Candidate

namespace Search

open Act (OnlyTells)

/-- The places where a search looks for a file, in order. -/
def candidates (s : Search) (name hint : String) : List Candidate :=
  (if isAbsoluteHint hint then [.file ((Path.ofText hint).join (.ofText name))]
    else s.dirs.flatMap fun dir =>
      if dir.isEmpty then
        if hint.isEmpty then [] else (s.bundle.map (Bundle.under [hint, name])).toList
      else [.file (((Path.ofText dir).join (.ofText hint)).join (.ofText name))]) ++
    (s.bundle.map (Bundle.under [name])).toList ++
    (s.bundle.map (Bundle.under [defaultFolder, name])).toList

variable (t : FileTree) (bundle : Option Bundle)

/-- The place in a bundle that a hint and a name lead to. -/
theorem places_hint (name hint : String) :
    bundle.map (Bundle.placeOf (stripSlashes hint ++ "/" ++ name)) =
      bundle.map (Bundle.under [hint, name]) :=
  Option.map_congr fun b _ => by rw [b.placeOf_eq, b.under_append, b.under_stripSlashes]

/-- The place in a bundle that a name leads to. -/
theorem places_name (name : String) :
    bundle.map (Bundle.placeOf name) = bundle.map (Bundle.under [name]) :=
  Option.map_congr fun b _ => b.placeOf_eq name

/-- The place in a bundle that a name leads to from the folder for defaults. -/
theorem places_default (name : String) :
    bundle.map (Bundle.placeOf (defaultFolder ++ "/" ++ name)) =
      bundle.map (Bundle.under [defaultFolder, name]) :=
  Option.map_congr fun b _ => by rw [b.placeOf_eq, b.under_append]

/-- Opening a path comes to a look at it. -/
theorem result_openFile (p : Path) : (openFile t p).result = (Candidate.file p).look t bundle := by
  simp only [openFile, Candidate.look, Candidate.failure?, Candidate.stream?, FileTree.open?]
  rcases t.find p with o | e
  · cases o <;> rfl
  · rcases e with ⟨_, _ | _⟩ | ⟨bytes, _ | _⟩ | ⟨bytes, _ | _⟩ <;> rfl

/-- A look whether a file is there fails like a look at the path in the folder of a bundle, or is
answered by what stands at the path. -/
theorem isFile_eq (p : Path) : isFile t p = match (Candidate.bundled p).failure? t with
    | some e => throw e
    | none => return (t.find p).toOption.any Entry.isFile := by
  unfold isFile
  rcases hfind : t.find p with o | e
  · simp only [Candidate.failure?, hfind]
    by_cases hover : isOverlooked o = true
    · simp only [if_pos hover]
      rcases FileTree.refusal? p o with _ | r <;> rfl
    · simp only [if_neg hover]
      rcases FileTree.refusal? p o with _ | r <;> rfl
  · simp only [Candidate.failure?, hfind]
    rfl

/-- Opening a file of a bundle comes to a look at its place. -/
theorem result_openBundled (relative : String) : (openBundled t bundle relative).result =
    Candidate.firstLook t bundle (bundle.map (Bundle.placeOf relative)).toList := by
  rcases bundle with _ | base | held
  · rfl
  · have hfirst := Candidate.firstLook_singleton t (some (.folder base))
      (.bundled (Bundle.pathOf base relative))
    refine Eq.trans ?_ hfirst.symm
    simp only [openBundled, isFile_eq, Candidate.look]
    rcases (Candidate.bundled (Bundle.pathOf base relative)).failure? t with _ | e
    · simp only [Candidate.stream?, FileTree.open?]
      rcases t.find (Bundle.pathOf base relative) with o | e
      · rfl
      · rcases e with ⟨_, _ | _⟩ | ⟨bytes, _ | _⟩ | ⟨bytes, _ | _⟩ <;> rfl
    · rfl
  · have hfirst := Candidate.firstLook_singleton t (some (.resources held))
      (.resource (Bundle.resourceNames relative))
    refine Eq.trans ?_ hfirst.symm
    simp only [openBundled, Candidate.look, Candidate.failure?, Candidate.stream?,
      Bundle.resourceNames]
    rcases held.lookup ((Bundle.names relative).filter (· != "")) with
      _ | ⟨bytes, stream, _ | r, read⟩
    · rfl
    · rfl
    · rfl

/-- A look into a directory comes to a look at the file in it. -/
theorem result_inDirectory (name : String) (dir : Path) : (inDirectory t name dir).result =
    (Candidate.file (dir.join (.ofText name))).look t bundle := by
  unfold inDirectory
  rw [(onlyTells_openFile t _).result_bind_report, result_openFile t bundle]
  rintro (_ | found) <;> exact ⟨_, Act.Tells.bind (Act.tells_tell _ _ _) (Act.tells_pure _)⟩

/-- A look into the bundle in place of a directory comes to a look at the place that the hint and
the name lead to, if there is a hint. -/
theorem result_inPlaceOfDirectory (name hint : String) :
    (inPlaceOfDirectory t bundle name hint).result = Candidate.firstLook t bundle
      (if hint.isEmpty then [] else (bundle.map (Bundle.under [hint, name])).toList) := by
  unfold inPlaceOfDirectory
  by_cases hnone : hint.isEmpty = true
  · rw [if_pos hnone, if_pos hnone]
    rfl
  · rw [if_neg hnone, if_neg hnone]
    dsimp only
    rw [(onlyTells_openBundled t bundle _).result_bind_report, result_openBundled, places_hint]
    rintro (_ | found) <;> exact ⟨_, Act.Tells.bind (Act.tells_tell _ _ _) (Act.tells_pure _)⟩

/-- A look into the bundle comes to a look at the place of the name. -/
theorem result_inBundle (name : String) : (inBundle t bundle name).result =
    Candidate.firstLook t bundle (bundle.map (Bundle.under [name])).toList := by
  have hreport : ∀ found : Option Stream, ∃ lines, Act.Tells (do
      if found.isSome then report ("Config loaded from bundle for " ++ Text.escape name)
      return found) (.ok found) lines := by
    rintro (_ | found)
    · exact ⟨_, Act.tells_pure _⟩
    · exact ⟨_, Act.Tells.bind (Act.tells_tell _ _ _) (Act.tells_pure _)⟩
  unfold inBundle
  rw [(onlyTells_report _).result_bind fun _ =>
    (onlyTells_openBundled t bundle name).bind fun found => ⟨_, hreport found⟩]
  show Act.result (openBundled t bundle name >>= _) = _
  rw [(onlyTells_openBundled t bundle _).result_bind_report hreport, result_openBundled,
    places_name]

/-- A look into the folder for defaults comes to a look at the place of the name in it. -/
theorem result_inDefaults (name : String) : (inDefaults t bundle name).result =
    Candidate.firstLook t bundle (bundle.map (Bundle.under [defaultFolder, name])).toList := by
  unfold inDefaults
  rw [(onlyTells_openBundled t bundle _).result_bind_report, result_openBundled, places_default]
  rintro (_ | found)
  · exact ⟨_, Act.tells_pure _⟩
  · exact ⟨_, Act.Tells.bind (Act.tells_tell _ _ _) (Act.tells_pure _)⟩

variable {t bundle}

/-- A search and those behind it come to looks at the places of the one and then of the others. -/
theorem result_firstOf_cons {tier : Act (Option Stream)} {rest : List (Act (Option Stream))}
    {places others : List Candidate} (honly : ∀ x ∈ tier :: rest, x.OnlyTells)
    (htier : tier.result = Candidate.firstLook t bundle places)
    (hrest : (firstOf rest).result = Candidate.firstLook t bundle others) :
    (firstOf (tier :: rest)).result = Candidate.firstLook t bundle (places ++ others) := by
  obtain ⟨htells, hothers⟩ := List.forall_mem_cons.mp honly
  unfold firstOf
  refine (htells.result_bind fun found => ?_).trans ?_
  · cases found with
    | some s => exact Act.onlyTells_pure _
    | none => exact onlyTells_firstOf hothers
  · rw [htier, Candidate.firstLook_append]
    rcases Candidate.firstLook t bundle places with e | _ | found
    · rfl
    · exact hrest
    · rfl

variable (t) (s : Search) (name hint : String)

/-- The places of the directories, in order. -/
theorem result_firstOf_dirs (hhint : isAbsoluteHint hint = false)
    {rest : List (Act (Option Stream))} {others : List Candidate}
    (honly : ∀ tier ∈ s.external t name hint ++ rest, tier.OnlyTells)
    (hrest : (firstOf rest).result = Candidate.firstLook t s.bundle others) :
    (firstOf (s.external t name hint ++ rest)).result = Candidate.firstLook t s.bundle
      ((s.dirs.flatMap fun dir =>
        if dir.isEmpty then
          if hint.isEmpty then [] else (s.bundle.map (Bundle.under [hint, name])).toList
        else [.file (((Path.ofText dir).join (.ofText hint)).join (.ofText name))]) ++ others) := by
  unfold external at honly ⊢
  rw [if_neg (by simp [hhint])] at honly ⊢
  -- The induction is on the directories alone; what comes after them stays.
  generalize s.dirs = dirs at honly ⊢
  induction dirs with
  | nil => exact hrest
  | cons dir dirs ih =>
    rw [List.map_cons, List.cons_append] at honly ⊢
    rw [List.flatMap_cons, List.append_assoc]
    refine result_firstOf_cons honly ?_ (ih (List.forall_mem_cons.mp honly).2)
    by_cases hdir : dir.isEmpty = true
    · rw [if_pos hdir, if_pos hdir]
      exact result_inPlaceOfDirectory t s.bundle name hint
    · rw [if_neg hdir, if_neg hdir, Candidate.firstLook_singleton]
      exact result_inDirectory t s.bundle name _

/-- What a search for a file finds is what the first look at its places finds. -/
theorem found_eq_firstLook :
    s.found t name hint = Candidate.firstLook t s.bundle (s.candidates name hint) := by
  have honly := s.onlyTells_tiers t name hint
  have hbundle : (firstOf [inBundle t s.bundle name, inDefaults t s.bundle name]).result =
      Candidate.firstLook t s.bundle ((s.bundle.map (Bundle.under [name])).toList ++
        ((s.bundle.map (Bundle.under [defaultFolder, name])).toList ++ [])) := by
    have hlast : ∀ tier ∈ [inBundle t s.bundle name, inDefaults t s.bundle name],
        tier.OnlyTells := fun tier htier => honly tier (List.mem_append_right _ htier)
    refine result_firstOf_cons hlast (result_inBundle t s.bundle name) ?_
    exact result_firstOf_cons (List.forall_mem_cons.mp hlast).2 (result_inDefaults t s.bundle name)
      rfl
  have htiers : (firstOf (s.external t name hint ++
      [inBundle t s.bundle name, inDefaults t s.bundle name])).result =
        Candidate.firstLook t s.bundle (s.candidates name hint) := by
    unfold candidates
    rw [List.append_nil] at hbundle
    by_cases hhint : isAbsoluteHint hint = true
    · rw [if_pos hhint, List.append_assoc]
      unfold external at honly ⊢
      rw [if_pos hhint] at honly ⊢
      refine result_firstOf_cons honly ?_ hbundle
      rw [Candidate.firstLook_singleton]
      exact result_inDirectory t s.bundle name _
    · rw [if_neg hhint, List.append_assoc]
      exact result_firstOf_dirs t s name hint (by simpa using hhint) honly hbundle
  -- What is reported at the end does not matter to what is found.
  unfold found locate
  refine ((onlyTells_firstOf honly).result_bind fun found => ?_).trans ?_
  · cases found with
    | some s => exact Act.onlyTells_pure _
    | none => exact (onlyTells_report _).bind fun _ => Act.onlyTells_pure _
  · rw [htiers]
    rcases Candidate.firstLook t s.bundle (s.candidates name hint) with e | _ | found <;> rfl

end Search
end Stratum
