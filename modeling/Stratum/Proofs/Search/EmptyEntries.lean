import Stratum.Proofs.Search.FirstHit

/-!
# Empty entries

An empty entry among the directories stands for the folder of the bundle: behind a relative hint, a
search with such entries comes to what it comes to with the folder written out in their place
(`Search.locate_filled`). The one goes to the file name by name and asks whether it is there, the
other writes the whole path out and opens it. So the two part where something opens that is no file,
and where the question is refused an answer.
-/

namespace Stratum

/-! ## Paths written out -/

namespace Path

/-- A path as it is read from a text: a root of at most two slashes, and parts that are kept, with
no slash in them. -/
structure IsRead (p : Path) : Prop where
  slashes_le : p.slashes ≤ 2
  isPart : ∀ part ∈ p.parts, isPart part.toList = true
  slash_not_mem : ∀ part ∈ p.parts, '/' ∉ part.toList

variable {p : Path}

/-- The path of a text is one. -/
theorem isRead_ofText (s : String) : (ofText s).IsRead := by
  have hparts : ∀ part ∈ (ofText s).parts,
      Path.isPart part.toList = true ∧ '/' ∉ part.toList := by
    intro part hpart
    obtain ⟨piece, hpiece, rfl⟩ := List.mem_map.mp hpart
    obtain ⟨hsplit, hkeep⟩ := List.mem_filter.mp hpiece
    rw [String.toList_ofList]
    exact ⟨hkeep, Text.not_mem_of_mem_splitOn hsplit⟩
  refine ⟨?_, fun part hpart => (hparts part hpart).1, fun part hpart => (hparts part hpart).2⟩
  show rootOf _ ≤ 2
  unfold rootOf
  split <;> omega

/-- A root of at most two slashes is read as it is. -/
theorem rootOf_of_le {n : Nat} (h : n ≤ 2) : rootOf n = n := if_pos h

/-- The characters of the parts, with slashes between them. -/
def written (p : Path) : List Char := ['/'].intercalate (p.parts.map String.toList)

/-- The parts do not start with a slash. -/
theorem IsRead.takeWhile_written (h : p.IsRead) : p.written.takeWhile (· == '/') = [] := by
  rw [written]
  rcases hparts : p.parts with _ | ⟨part, rest⟩
  · rfl
  · have hpart : part ∈ p.parts := hparts ▸ List.mem_cons_self
    have hslash := h.slash_not_mem part hpart
    have hkeep := h.isPart part hpart
    rcases hchars : part.toList with _ | ⟨c, cs⟩
    · rw [hchars] at hkeep
      cases hkeep
    · have hc : ¬ (c == '/') = true := fun hc => by simp [hchars, beq_iff_eq.mp hc] at hslash
      have hhead : ∃ cs', ['/'].intercalate ((part :: rest).map String.toList) = c :: cs' := by
        cases rest <;> simp [hchars, List.intercalate]
      obtain ⟨cs', hhead⟩ := hhead
      rw [hhead]
      exact List.takeWhile_cons_of_neg hc

/-- The pieces between the slashes are the parts. -/
theorem IsRead.pieces_written (h : p.IsRead) :
    pieces Path.isPart p.written = p.parts.map String.toList := by
  have hslash : ∀ cs ∈ p.parts.map String.toList, '/' ∉ cs := by
    intro cs hcs
    obtain ⟨part, hpart, rfl⟩ := List.mem_map.mp hcs
    exact h.slash_not_mem part hpart
  have hkeep : ∀ cs ∈ p.parts.map String.toList, Path.isPart cs = true := by
    intro cs hcs
    obtain ⟨part, hpart, rfl⟩ := List.mem_map.mp hcs
    exact h.isPart part hpart
  unfold written
  by_cases hnone : p.parts.map String.toList = []
  · rw [hnone]
    exact pieces_nil rfl
  · rw [pieces, List.splitOn_intercalate _ hslash hnone]
    exact List.filter_eq_self.mpr hkeep

/-- The slashes of a root make no pieces. -/
theorem pieces_root (n : Nat) (cs : List Char) :
    pieces Path.isPart (List.replicate n '/' ++ cs) = pieces Path.isPart cs := by
  induction n with
  | zero => rfl
  | succ n ih =>
    rw [List.replicate_succ, List.cons_append, ← List.nil_append ('/' :: _), pieces_append,
      pieces_nil rfl, ih, List.nil_append]

/-- A path is written as its root and its parts, or as a point if there is nothing to write. -/
theorem toList_text (p : Path) : p.text.toList =
    if List.replicate p.slashes '/' ++ p.written = [] then ['.']
    else List.replicate p.slashes '/' ++ p.written := by
  have hchars : (String.ofList (List.replicate p.slashes '/') ++ "/".intercalate p.parts).toList =
      List.replicate p.slashes '/' ++ p.written := by
    rw [String.toList_append, String.toList_ofList, String.toList_intercalate]
    rfl
  unfold text
  dsimp only
  generalize String.ofList (List.replicate p.slashes '/') ++ "/".intercalate p.parts = s at hchars
  rw [← hchars]
  by_cases hempty : s = ""
  · subst hempty
    rfl
  · rw [if_neg (mt String.isEmpty_iff.mp hempty), if_neg (mt String.toList_eq_nil_iff.mp hempty)]

/-- A path that was read is read again from what is written for it. -/
theorem IsRead.ofText_text (h : p.IsRead) : ofText p.text = p := by
  have hroot : ((List.replicate p.slashes '/' ++ p.written).takeWhile (· == '/')).length =
      p.slashes := by
    rw [List.takeWhile_append_of_pos (by simp), h.takeWhile_written, List.append_nil,
      List.length_replicate]
  have hpieces : pieces Path.isPart (List.replicate p.slashes '/' ++ p.written) =
      p.parts.map String.toList := by
    rw [pieces_root, h.pieces_written]
  show Path.mk (rootOf (p.text.toList.takeWhile (· == '/')).length)
    ((pieces Path.isPart p.text.toList).map String.ofList) = p
  rw [toList_text]
  split
  · -- A point is read as a path of no parts, as `p` is if nothing else is written for it.
    rename_i hnone
    rw [hnone] at hroot hpieces
    have hparts : p.parts = [] := by simpa [pieces, Path.isPart] using hpieces.symm
    have hslashes : p.slashes = 0 := hroot.symm
    cases p
    subst hparts hslashes
    decide
  · rw [hroot, rootOf_of_le h.slashes_le, hpieces]
    simp

/-- Something is written for every path. -/
theorem text_ne_empty (p : Path) : p.text ≠ "" := by
  unfold text
  dsimp only
  split
  · decide
  · rename_i h
    simpa using h

/-- A text is read as a path from the root exactly if it starts with a slash. -/
theorem isAbsolute_ofText (s : String) :
    (ofText s).isAbsolute = true ↔ s.toList.head? = some '/' := by
  show (rootOf (s.toList.takeWhile (· == '/')).length != 0) = true ↔ _
  have hroot : ∀ n, rootOf n = 0 ↔ n = 0 := by
    intro n
    unfold rootOf
    split <;> omega
  rw [bne_iff_ne, Ne, hroot]
  cases s.toList with
  | nil => simp
  | cons c cs =>
    by_cases hc : c = '/' <;> simp [hc]

end Path

/-! ## Paths that are admitted -/

namespace FileTree

/-- A path that the operating system takes: no null character is in it, and neither it nor a name in
it is too long. -/
structure Admissible (p : Path) : Prop where
  nul_not_mem : '\x00' ∉ p.text.toList
  length_lt : byteLength p.text < pathLimit
  name_le : ∀ name ∈ p.parts, byteLength name ≤ nameLimit

/-- What stands at a path is a file if it opens, and no refusal stands in its way that is passed on
to whoever looks whether a file is there. -/
structure Plain (t : FileTree) (p : Path) : Prop where
  isFile : ∀ e bytes, t.find p = .ok e → e.open? = .ok bytes → e.isFile = true
  isOverlooked : ∀ e, t.find p = .error (.refused e) → Search.isOverlooked (.refused e) = true

variable (t : FileTree) {o : Obstacle}

/-- In the way of an admissible path is that nothing is there, or a file, or a refusal. -/
theorem Admissible.cases_of_find {p : Path} (h : Admissible p) (hfind : t.find p = .error o) :
    o = .absent ∨ o = .notFolder ∨ ∃ e, o = .refused e := by
  cases blocks_of_find hfind with
  | absent => exact .inl rfl
  | notFolder => exact .inr (.inl rfl)
  | refused e => exact .inr (.inr ⟨e, rfl⟩)
  | nul hnul => exact absurd hnul h.nul_not_mem
  | tooLong hlong =>
    obtain hlong | ⟨name, hname, hlong⟩ := hlong
    · exact absurd h.length_lt (Nat.not_lt.mpr hlong)
    · exact absurd (h.name_le name hname) (Nat.not_le.mpr hlong)

end FileTree

/-! ## Looks -/

namespace Candidate

variable (t : FileTree) (bundle : Option Bundle)

/-- A look at an admissible path comes to the same in the folder of a bundle as outside it, if what
opens there is a file and no refusal is passed on. -/
theorem look_bundled {p : Path} (h : FileTree.Admissible p) (hplain : t.Plain p) :
    (bundled p).look t bundle = (file p).look t bundle := by
  -- Neither candidate fails: what is in the way of an admissible path is overlooked in a bundle
  -- folder too. And a plain file is opened at both.
  have hfile : (file p).failure? t = none := by
    rw [failure?]
    rcases hfind : t.find p with o | e
    · rcases h.cases_of_find t hfind with rfl | rfl | ⟨e, rfl⟩ <;> rfl
    · rfl
  have hbundled : (bundled p).failure? t = none := by
    rw [failure?]
    rcases hfind : t.find p with o | e
    · refine if_pos ?_
      rcases h.cases_of_find t hfind with rfl | rfl | ⟨e, rfl⟩
      · rfl
      · rfl
      · exact hplain.isOverlooked e hfind
    · rfl
  have hstream : (bundled p).stream? t bundle = (file p).stream? t bundle := by
    rw [stream?, stream?, FileTree.open?]
    rcases hfind : t.find p with o | e
    · rfl
    · show (if e.isFile = true then e.open?.toOption.map (Stream.ofFile p) else none) =
        e.open?.toOption.map (Stream.ofFile p)
      rcases hopen : e.open? with o | bytes
      · exact ite_self none
      · exact if_pos (hplain.isFile e bytes hfind hopen)
  rw [look, look, hfile, hbundled, hstream]

/-- Looks at the places that come of entries come to the same if they do for each entry. -/
theorem firstLook_flatMap {α : Type} {f g : α → List Candidate} {entries : List α}
    (h : ∀ a, firstLook t bundle (f a) = firstLook t bundle (g a)) (rest : List Candidate) :
    firstLook t bundle (entries.flatMap f ++ rest) =
      firstLook t bundle (entries.flatMap g ++ rest) := by
  induction entries with
  | nil => rfl
  | cons a entries ih =>
    rw [List.flatMap_cons, List.flatMap_cons, List.append_assoc, List.append_assoc,
      firstLook_append t bundle (f a), firstLook_append t bundle (g a), h a, ih]

end Candidate

namespace Search

/-- A search with a path written out in the place of each empty directory. -/
def filled (s : Search) (place : Path) : Search :=
  { s with dirs := s.dirs.map fun dir => if dir.isEmpty then place.text else dir }

variable {s : Search} {place name hint : String}

/-- The bundle is the same. -/
@[simp] theorem filled_bundle (place : Path) : (s.filled place).bundle = s.bundle := rfl

/-- The place under a folder that a hint and a name lead to is the one in the directory of the
folder, if both are relative. -/
theorem under_folder (hhint : isAbsoluteHint hint = false)
    (hname : (Path.ofText name).isAbsolute = false) :
    Bundle.under [hint, name] (.folder (.ofText place)) =
      .bundled ((directory place hint).join (.ofText name)) := by
  have hdirectory : directory place hint =
      ⟨(Path.ofText place).slashes, (Path.ofText place).parts ++ (Path.ofText hint).parts⟩ :=
    if_neg (by simpa [isAbsoluteHint] using hhint)
  rw [hdirectory, Path.join, if_neg (by simpa using hname), Bundle.under]
  simp

/-- The directory of a folder that was written out is the directory of the folder. -/
theorem directory_text (place hint : String) :
    directory (Path.ofText place).text hint = directory place hint := by
  rw [directory, (Path.isRead_ofText place).ofText_text, directory]

/-- Looks at the places of a search come to the same with the folder of the bundle written out in
the place of each empty directory. -/
theorem firstLook_filled (t : FileTree) (hbundle : s.bundle = some (.folder (.ofText place)))
    (hhint : hint ≠ "") (hrelative : isAbsoluteHint hint = false)
    (hname : (Path.ofText name).isAbsolute = false)
    (hadmissible : FileTree.Admissible ((directory place hint).join (.ofText name)))
    (hplain : t.Plain ((directory place hint).join (.ofText name))) :
    Candidate.firstLook t s.bundle ((s.filled (.ofText place)).candidates name hint) =
      Candidate.firstLook t s.bundle (s.candidates name hint) := by
  have hnot : ¬ isAbsoluteHint hint = true := Bool.eq_false_iff.mp hrelative
  unfold candidates filled
  rw [if_neg hnot, if_neg hnot, List.append_assoc, List.append_assoc, List.flatMap_map]
  -- The directories are compared one by one; what comes behind them is the same.
  refine Candidate.firstLook_flatMap t s.bundle (fun dir => ?_) _
  by_cases hdir : dir.isEmpty = true
  · have htext : ¬ (Path.ofText place).text.isEmpty = true :=
      mt String.isEmpty_iff.mp (Path.text_ne_empty _)
    have hplaces : (s.bundle.map (Bundle.under [hint, name])).toList =
        [.bundled ((directory place hint).join (.ofText name))] := by
      rw [hbundle, Option.map_some, under_folder hrelative hname]
      rfl
    have hpath : ((Path.ofText (Path.ofText place).text).join (.ofText hint)).join (.ofText name) =
        (directory place hint).join (.ofText name) :=
      congrArg (·.join (.ofText name)) (directory_text place hint)
    dsimp only
    rw [if_pos hdir, if_pos hdir, if_neg htext, if_neg (mt String.isEmpty_iff.mp hhint), hplaces,
      hpath, Candidate.firstLook_singleton, Candidate.firstLook_singleton,
      Candidate.look_bundled t s.bundle hadmissible hplain]
  · dsimp only
    rw [if_neg hdir, if_neg hdir]

/-- A search with a folder as its bundle comes to the same with the folder written out in the place
of each empty directory, for a relative hint that is not empty and a name that does not start with a
slash: the same stream, of the same path and with the same content, or nothing in the same cases.
The path of the hint and the name in the folder must be one that the operating system takes, and it
must be plain in the file tree: what opens there is a file, and no refusal in its way is passed
on. -/
theorem locate_filled (t : FileTree) (hbundle : s.bundle = some (.folder (.ofText place)))
    (hhint : hint ≠ "") (hrelative : isAbsoluteHint hint = false)
    (hname : name.toList.head? ≠ some '/')
    (hadmissible : FileTree.Admissible ((directory place hint).join (.ofText name)))
    (hplain : t.Plain ((directory place hint).join (.ofText name))) (st : Store) :
    (((s.filled (.ofText place)).locate t name hint).run.run st).1 =
        ((s.locate t name hint).run.run st).1 ∧
      (((s.filled (.ofText place)).locate t name hint).run.run st).2.heap =
        ((s.locate t name hint).run.run st).2.heap := by
  have hname' : (Path.ofText name).isAbsolute = false := by
    simpa using mt (Path.isAbsolute_ofText name).mp hname
  have hlooks := firstLook_filled t hbundle hhint hrelative hname' hadmissible hplain
  simp only [run_locate, filled_bundle, hlooks, and_self]

end Search

/-! A folder with a file in it, and two empty directories around another one. -/
namespace FilledEntry

/-- A file under a hint in a folder, and a directory of its name elsewhere. -/
def files : FileTree :=
  ⟨[(["b"], .folder), (["b", "h"], .folder), (["b", "h", "x.yml"], .file [97]),
    (["c"], .folder), (["c", "h"], .folder), (["c", "h", "x.yml"], .folder)], []⟩

/-- The folder as the bundle, written with slashes and a point that do not count. -/
def search : Search := ⟨["/c", "", "/d", ""], some (.folder (.ofText "/b//./"))⟩

/-- The file is found for the first of the empty directories, and with the folder in its place. -/
theorem found_in_folder :
    FileTree.Admissible ((Search.directory "/b//./" "h/../h/").join (.ofText "x.yml")) ∧
    files.Plain ((Search.directory "/b//./" "h/../h/").join (.ofText "x.yml")) ∧
    (search.filled (.ofText "/b//./")).dirs = ["/c", "/b", "/d", "/b"] ∧
    ∀ s ∈ [search, search.filled (.ofText "/b//./")],
      ((s.locate files "x.yml" "h/../h/").run.run .empty).1 =
        .ok (some ⟨some "/b/h/../h/x.yml", .ok [97]⟩) := by
  have hadmissible : FileTree.Admissible ((Search.directory "/b//./" "h/../h/").join
      (.ofText "x.yml")) := by
    refine ⟨?_, ?_, ?_⟩ <;> decide +kernel
  have hplain : files.Plain ((Search.directory "/b//./" "h/../h/").join (.ofText "x.yml")) := by
    have hfind : files.find ((Search.directory "/b//./" "h/../h/").join (.ofText "x.yml")) =
        .ok (.file [97]) := rfl
    refine ⟨?_, ?_⟩
    · intro e bytes h _
      obtain rfl := Except.ok.inj (hfind.symm.trans h)
      rfl
    · intro e h
      cases hfind.symm.trans h
  have hfound : ((search.locate files "x.yml" "h/../h/").run.run .empty).1 =
      .ok (some ⟨some "/b/h/../h/x.yml", .ok [97]⟩) := rfl
  obtain ⟨hsame, -⟩ := Search.locate_filled files (s := search) rfl (by decide) (by decide)
    (by decide) hadmissible hplain .empty
  refine ⟨hadmissible, hplain, by decide +kernel, ?_⟩
  intro s hs
  rcases List.mem_cons.mp hs with rfl | hs
  · exact hfound
  · rw [List.mem_singleton.mp hs, hsame, hfound]

end FilledEntry

/-! A device in place of the file, and a folder that may not be entered. -/
namespace OddEntries

/-- Behind a hint, a device in one folder and nothing that can be reached in another one. -/
def files : FileTree :=
  ⟨[(["b"], .folder), (["b", "h"], .folder), (["b", "h", "null"], .device [97]),
    (["c"], .folder), (["c", "h"], .folder (some .denied))], []⟩

/-- An empty directory, and a folder as the bundle. -/
def within (place : String) : Search := ⟨[""], some (.folder (.ofText place))⟩

/-- What a search in the bundle of a place finds for the empty directory. -/
def found (place : String) : Except Failure (Option Stream) :=
  (((within place).locate files "null" "h").run.run .empty).1

/-- What it finds with the place written out. -/
def filledFound (place : String) : Except Failure (Option Stream) :=
  ((((within place).filled (.ofText place)).locate files "null" "h").run.run .empty).1

/-- The device is passed over for the empty directory and opened with the folder in its place. For
the folder that may not be entered the search fails, and with the folder in its place it finds
nothing. -/
theorem empty_entry_differs :
    (∀ place ∈ ["/b", "/c"],
      FileTree.Admissible ((Search.directory place "h").join (.ofText "null"))) ∧
    (found "/b" = .ok none ∧ filledFound "/b" = .ok (some ⟨some "/b/h/null", .ok [97]⟩)) ∧
    found "/c" = .error (.refused (.atPath 13 "Permission denied" "/c/h/null")) ∧
      filledFound "/c" = .ok none := by
  refine ⟨?_, ⟨rfl, rfl⟩, rfl, rfl⟩
  intro place hplace
  simp only [List.mem_cons, List.not_mem_nil, or_false] at hplace
  rcases hplace with rfl | rfl <;> refine ⟨?_, ?_, ?_⟩ <;> decide +kernel

end OddEntries
end Stratum
