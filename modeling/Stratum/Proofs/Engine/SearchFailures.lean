import Stratum.Proofs.Engine.Agreement
import Stratum.Proofs.Resolve.Malformed
import Stratum.Proofs.Search.FirstHit
import Stratum.Proofs.Shape

/-!
# Failures of a search

A search fails where a look at a place does: a path with a null character fails to be opened, and a
path in the folder of a bundle fails to be asked whether it is a file if it is too long or the
system refuses to follow it. Nothing else that an engine does fails so. A getter ends with such a
failure if one of the files that it looks for is searched for in vain in this way, and no file
before it is found that can be read (`Search.search_fails_iff`).
-/

namespace Stratum

/-- A path of one name with too many bytes is refused for its length, if it holds no null
character. -/
theorem FileTree.find_of_long (t : FileTree) {name : String}
    (hnul : (Path.text ⟨1, [name]⟩).toList.contains '\x00' = false)
    (hlong : nameLimit < byteLength name) : t.find ⟨1, [name]⟩ = .error .tooLong := by
  -- Two points would lead upwards, but they are not long.
  have hdots : name ≠ ".." := by
    rintro rfl
    exact absurd hlong (by decide)
  have hroot : t.entry? [] = some .folder := rfl
  have hwalk : t.walk [] [name] = .error .tooLong := by
    rw [walk, bar?, hroot]
    dsimp only [Entry.bar?, Option.map_none]
    rw [if_neg hdots, if_pos hlong]
  have habsolute : Path.isAbsolute ⟨1, [name]⟩ = true := rfl
  unfold find
  dsimp only
  rw [hnul, if_neg Bool.false_ne_true, habsolute, if_pos rfl, hwalk]
  exact ite_self _

/-- The failures that a search may end with: a path that holds a null character, and a refusal of
the operating system. -/
def Failure.OfSearch : Failure → Prop
  | .nulInPath | .refused _ => True
  | _ => False

namespace Candidate

/-- A look at a place fails at a path with a null character in it, and at one in a bundle that is
too long or that the system refuses to follow in a way that is no answer. -/
theorem failure?_eq_some_iff {t : FileTree} {c : Candidate} {e : Failure} :
    c.failure? t = some e ↔
      (∃ p, c = .file p ∧ t.find p = .error .nul ∧ e = .nulInPath) ∨
      (∃ p, c = .bundled p ∧ t.find p = .error .tooLong ∧
        e = .refused (.atPath 36 "File name too long" p.text)) ∨
      ∃ p d, c = .bundled p ∧ t.find p = .error (.refused d) ∧ d.number ∉ Search.overlooked ∧
        e = .refused (.atPath d.number d.words p.text) := by
  cases c with
  | file p =>
    rcases hfind : t.find p with o | entry
    · cases o <;> simp [failure?, hfind, eq_comm]
    · simp [failure?, hfind]
  | bundled p =>
    rcases hfind : t.find p with o | entry
    · cases FileTree.blocks_of_find hfind with
      | refused d =>
        have hoverlooked : Search.isOverlooked (.refused d) = true ↔
            d.number ∈ Search.overlooked := List.contains_iff_mem
        by_cases hover : d.number ∈ Search.overlooked
        · simp [failure?, hfind, hoverlooked.mpr hover, hover]
        · have hanswer := mt hoverlooked.mp hover
          simp [failure?, hfind, hanswer, hover, FileTree.refusal?, Obstacle.error?, eq_comm]
      | absent | notFolder | tooLong | nul =>
        simp [failure?, hfind, Search.isOverlooked, Search.overlooked, FileTree.refusal?,
          Obstacle.error?, eq_comm]
    · simp [failure?, hfind]
  | resource names => simp [failure?]

/-- A look at a place fails with its failure. -/
theorem look_eq_error_iff {t : FileTree} {bundle : Option Bundle} {c : Candidate} {e : Failure} :
    c.look t bundle = .error e ↔ c.failure? t = some e := by
  unfold look
  rcases c.failure? t with _ | f
  · simp
  · simp

end Candidate

/-! ## What does not fail so -/

section Others

open Act (FailsAs failsAs_pure failsAs_throw failsAs_look failsAs_make failsAs_ofExcept)

/-- What parsing a mapping ends with is no failure of a search. -/
theorem Document.parseMapping_not_ofSearch (bytes : List UInt8) (name : String) :
    (parseMapping bytes name).FailsAs (¬ ·.OfSearch) := by
  intro st e st' hrun
  have hcontent := run_parseMapping bytes name st
  rcases hstray : stray? bytes name st.heap with _ | f
  · rw [hstray, hrun] at hcontent
    obtain ⟨s, ⟨⟩⟩ | ⟨fault, ⟨⟩⟩ := hcontent
    exact id
  · rw [hstray, hrun] at hcontent
    obtain rfl := Except.error.inj (congrArg Prod.fst hcontent)
    obtain ⟨fault, rfl⟩ | ⟨fault, rfl⟩ := stray?_cases hstray <;> exact id

/-- What the mapping of a stream ends with is no failure of a search. -/
theorem Resolver.mappingOf_not_ofSearch (stream : Stream) (filename : String) (bytes : List UInt8) :
    (mappingOf stream filename bytes).FailsAs (¬ ·.OfSearch) := by
  refine (Document.parseMapping_not_ofSearch bytes filename).tryCatch fun e he => ?_
  split
  · exact (Act.failsAs_tell _ _ _).bind fun _ => failsAs_throw id
  · exact failsAs_throw he

/-- What a merge ends with is no failure of a search. -/
theorem Overlay.mergeMap_not_ofSearch (o : Overlay) (config : Slot) :
    (o.mergeMap config).FailsAs (¬ ·.OfSearch) := by
  intro st e st' hrun
  have houtcome := o.mergeMap_outcome config st
  rw [hrun] at houtcome
  obtain ⟨⟨⟩⟩ | ⟨values, exempt, -, ⟨lower, -, -, ⟨⟩⟩ | ⟨fault, -, ⟨⟩⟩⟩ := houtcome
  · exact id
  · exact id

/-- What building a shape ends with is no failure of a search. -/
theorem Failure.OfShape.not_ofSearch {shape : Shape} {e : Failure} (h : e.OfShape shape) :
    ¬ e.OfSearch := by
  cases h <;> exact id

end Others

/-! ## What does -/

namespace Search

variable {s : Search} {t : FileTree} {p : Provider} {name hint filename : String} {e : Failure}
  {st : Store}

/-- The failure of the searches for files one after the other: each is searched for unless one
before it is found that can be read. -/
def failure? (s : Search) (t : FileTree) (hint : String) : List String → Option Failure
  | [] => none
  | filename :: rest =>
    match s.found t filename hint with
    | .error e => some e
    | .ok _ => if (s.readable t filename hint).isSome then none else s.failure? t hint rest

/-- What follows an act fails in no way that matters, so that the act decides whether both do. -/
theorem bind_fails_iff {α β : Type} {x : Act α} {f : α → Act β} (he : e.OfSearch)
    (hf : ∀ a, (f a).FailsAs (¬ ·.OfSearch)) :
    ((x >>= f).run.run st).1 = .error e ↔ (x.run.run st).1 = .error e := by
  rw [Act.run_bind]
  rcases x.run.run st with ⟨e' | a, st'⟩
  · simp only [Except.error.injEq]
  · refine ⟨fun h => absurd he (hf a st' e _ (Prod.ext h rfl)), fun h => ?_⟩
    cases h

/-- Loading a file ends with what its search fails with. -/
theorem run_load_of_error (h : s.found t filename hint = .error e) (st : Store) :
    ((Resolver.mk s p).load t filename hint).run.run st =
      (.error e, { st with log := st.log ++ s.told t filename hint }) := by
  rw [Resolver.load, Act.run_bind, s.tells_locate, h]

/-- Loading the first file fails so if one of the searches that are made does. -/
theorem loadFirst_fails_iff (he : e.OfSearch) (extensions : List String) (st : Store) :
    (((Resolver.mk s p).loadFirst t name hint extensions).run.run st).1 = .error e ↔
      s.failure? t hint (extensions.map (name ++ ·)) = some e := by
  -- What is found for an extension decides: a failure and a file that can be read end the searches.
  induction extensions generalizing st with
  | nil => exact ⟨fun h => (by cases h), fun h => (by cases h)⟩
  | cons x rest ih =>
    rw [Resolver.loadFirst, List.map_cons, failure?, Act.run_bind]
    rcases hfound : s.found t (name ++ x) hint with e' | found
    · rw [run_load_of_error hfound]
      simp only [Except.error.injEq, Option.some.injEq]
    · dsimp only
      rcases hreadable : s.readable t (name ++ x) hint with _ | ⟨stream, bytes⟩
      · rw [tells_load_of_missed hfound hreadable]
        exact ih _
      · have hmapping := Resolver.mappingOf_not_ofSearch stream (name ++ x) bytes
        rw [run_load_of_readable hreadable, Act.run_bind]
        rcases hrun : (Resolver.mappingOf stream (name ++ x) bytes).run.run
          { st with log := st.log ++ s.told t (name ++ x) hint } with ⟨e' | config, st'⟩
        · refine ⟨fun h => absurd he ?_, fun h => (by cases h)⟩
          obtain rfl := Except.error.inj h
          exact hmapping _ _ _ hrun
        · exact ⟨fun h => (by cases h), fun h => (by cases h)⟩

/-- A text fails so if the search for its file does. -/
theorem resolveString_fails_iff (he : e.OfSearch) (st : Store) :
    (((Resolver.mk s p).resolveString t filename hint).run.run st).1 = .error e ↔
      s.failure? t hint [filename] = some e := by
  unfold Resolver.resolveString
  rw [bind_fails_iff he, s.tells_locate, failure?]
  · dsimp only
    rcases s.found t filename hint with e' | found
    · simp only [Except.error.injEq, Option.some.injEq]
    · refine ⟨fun h => (by cases h), fun h => ?_⟩
      dsimp only at h
      split at h <;> cases h
  · rintro (_ | stream)
    · exact Act.failsAs_pure _
    · dsimp only
      split
      · exact (Act.failsAs_tell _ _ _).bind fun _ => Act.failsAs_pure _
      · split
        · exact Act.failsAs_pure _
        · exact (Act.failsAs_tell _ _ _).bind fun _ => Act.failsAs_throw id

end Search

/-! ## What a getter looks for -/

/-- The files that a getter looks for, in order. -/
def Getter.filenames : Getter → List String
  | .string filename _ => [filename]
  | .map name _ => Document.extensions.map (name ++ ·)
  | .object name _ _ => Document.extensions.map (name ++ ·)

/-- The path hint of a getter. -/
def Getter.hint : Getter → String
  | .string _ hint => hint
  | .map _ hint => hint
  | .object _ _ hint => hint

namespace Search

variable {e : Failure}

/-- What is found in the files for a getter fails so if one of the searches that are made does. -/
theorem resolve_fails_iff (he : e.OfSearch) (s : Search) (o : Overlay) (t : FileTree) (g : Getter)
    (st : Store) : ((g.resolve t ⟨s, o⟩).run.run st).1 = .error e ↔
      s.failure? t g.hint g.filenames = some e := by
  -- What follows the search fails with no error of a search, for any of the getters.
  cases g with
  | string filename hint =>
    refine (bind_fails_iff he fun _ => Act.failsAs_pure _).trans ?_
    exact resolveString_fails_iff he st
  | map name hint =>
    refine (bind_fails_iff he ?_).trans (loadFirst_fails_iff he Document.extensions st)
    rintro (_ | config)
    · exact Act.failsAs_pure _
    · dsimp only [Overlay.provider]
      rw [pure_bind]
      split
      · exact (Act.failsAs_tell _ _ _).bind fun _ => Act.failsAs_pure _
      · exact (o.mergeMap_not_ofSearch config).bind fun _ => Act.failsAs_pure _
  | object name d hint =>
    have hbuild : ∀ config, (d.shape.build config).FailsAs (¬ ·.OfSearch) := fun config =>
      (d.shape.failsAs_build config).mono fun _ he => he.not_ofSearch
    refine (bind_fails_iff he ?_).trans (loadFirst_fails_iff he Document.extensions st)
    rintro (_ | config)
    · exact Act.failsAs_pure _
    · dsimp only [Overlay.provider]
      rw [pure_bind]
      split
      · exact (Act.failsAs_tell _ _ _).bind fun _ =>
          (hbuild config).bind fun _ => Act.failsAs_pure _
      · exact ((o.mergeMap_not_ofSearch config).bind fun _ =>
          hbuild config).bind fun _ => Act.failsAs_pure _

/-- A refresh fails by the clock only. -/
theorem not_ofSearch_of_refresh {now : Moment} {q q' : EngineState}
    (h : (EngineAct.refresh now).run.run q = (.error e, q')) : ¬ e.OfSearch := by
  rw [EngineAct.run_refresh] at h
  rcases hrefresh : q.cache.refresh now with ⟨c, fault | cleared⟩
  · rw [hrefresh] at h
    obtain rfl := Except.error.inj (congrArg Prod.fst h)
    cases fault <;> exact id
  · rw [hrefresh] at h
    cases congrArg Prod.fst h

/-- The cache has no answer under a key, and what is under it is computed on a store. -/
def Computes (now : Moment) (key : CacheKey) (q : EngineState) (st : Store) : Prop :=
  ∃ cache flight generation c, (EngineAct.refresh now).run.run q = (.ok (), ⟨cache, st⟩) ∧
    cache.lookup key = (.started flight generation, c)

/-- A cache that was never filled has no answer under any key. -/
theorem computes_empty {now midnight : Moment} (h : now.nextMidnight? = some midnight)
    (key : CacheKey) (st : Store) : ∃ st', Computes now key ⟨.empty, st⟩ st' := by
  refine ⟨st.say Cache.refreshLine, ⟨[], [], 0, 1, some midnight⟩, 0, 1, _, ?_, rfl⟩
  rw [EngineAct.run_refresh]
  simp [Cache.refresh, Cache.isExpired, Cache.empty, Cache.clear, h]

/-- A getter fails so if the cache has no answer and what it computes does. -/
theorem fetch_fails_iff (he : e.OfSearch) (now : Moment) (key : CacheKey)
    (compute : Act (Option Slot)) (q : EngineState) :
    ((EngineAct.fetch now key compute).run.run q).1 = .error e ↔
      ∃ st, Computes now key q st ∧ (compute.run.run st).1 = .error e := by
  rw [EngineAct.run_fetch]
  unfold Computes
  -- The refresh fails by the clock only, and neither a hit nor a flight that is joined ends with a
  -- failure of a search: what is left is the computation.
  rcases hrefresh : (EngineAct.refresh now).run.run q with ⟨e' | _, ⟨cache, st⟩⟩
  · refine ⟨fun h => absurd he ?_, ?_⟩
    · obtain rfl := Except.error.inj h
      exact not_ofSearch_of_refresh hrefresh
    · rintro ⟨st, ⟨cache, flight, generation, c, ⟨⟩, -⟩, -⟩
  · dsimp only
    rcases hlookup : cache.lookup key with ⟨v | f | ⟨f, n⟩, c⟩
    · refine ⟨fun h => (by cases h), ?_⟩
      rintro ⟨st, ⟨cache, flight, generation, c, ⟨⟩, hstarted⟩, -⟩
      cases hlookup.symm.trans hstarted
    · refine ⟨fun h => ?_, ?_⟩
      · obtain rfl := Except.error.inj h
        exact absurd he id
      · rintro ⟨st, ⟨cache, flight, generation, c, ⟨⟩, hstarted⟩, -⟩
        cases hlookup.symm.trans hstarted
    · dsimp only
      rcases hcompute : compute.run.run st with ⟨e' | v, st'⟩
      · refine ⟨fun h => ⟨st, ⟨cache, f, n, c, rfl, hlookup⟩, ?_⟩, ?_⟩
        · rw [hcompute]
          exact congrArg Except.error (Except.error.inj h)
        · rintro ⟨st, ⟨cache, flight, generation, c, ⟨⟩, -⟩, h⟩
          rw [hcompute] at h
          exact congrArg Except.error (Except.error.inj h)
      · refine ⟨fun h => (by cases h), ?_⟩
        rintro ⟨st, ⟨cache, flight, generation, c, ⟨⟩, -⟩, h⟩
        rw [hcompute] at h
        cases h

/-- A search fails where a look at one of its places does and those before it find nothing: at a
path with a null character, and at one in the folder of a bundle that is too long or that the system
refuses to follow, unless the refusal counts as an answer. Asking for a stream fails as the search
does. A getter fails so if the cache has no answer and one of the searches that are made does. -/
theorem search_fails_iff (s : Search) (o : Overlay) (w : Surroundings) (e : Failure) :
    (∀ name hint st, ((s.locate w.files name hint).run.run st).1 = .error e ↔
      ∃ earlier c later, s.candidates name hint = earlier ++ c :: later ∧
        (∀ x ∈ earlier, x.look w.files s.bundle = .ok none) ∧
          c.failure? w.files = some e) ∧
    (∀ c : Candidate, c.failure? w.files = some e ↔
      (∃ p, c = .file p ∧ w.files.find p = .error .nul ∧ e = .nulInPath) ∨
      (∃ p, c = .bundled p ∧ w.files.find p = .error .tooLong ∧
        e = .refused (.atPath 36 "File name too long" p.text)) ∨
      ∃ p d, c = .bundled p ∧ w.files.find p = .error (.refused d) ∧ d.number ∉ overlooked ∧
        e = .refused (.atPath d.number d.words p.text)) ∧
    (∀ p name hint q, ((Resolver.getStream ⟨s, p⟩ w name hint).run.run q).1 =
      ((s.locate w.files name hint).run.run q.store).1) ∧
    (e.OfSearch → ∀ (g : Getter) q, ((g.ask w ⟨s, o⟩).run.run q).1 = .error e ↔
      s.failure? w.files g.hint g.filenames = some e ∧
        ∃ st, Computes w.now g.key q st) := by
  refine ⟨fun name hint st => ?_, fun c => Candidate.failure?_eq_some_iff, ?_, ?_⟩
  · rw [s.run_locate, Candidate.firstLook_eq_error_iff]
    simp only [Candidate.look_eq_error_iff]
  · intro p name hint q
    rw [Resolver.getStream, EngineAct.run_ofAct]
  · intro he g q
    rw [g.ask_eq, fetch_fails_iff he]
    simp only [resolve_fails_iff he]
    exact ⟨fun ⟨st, hst, h⟩ => ⟨h, st, hst⟩, fun ⟨h, st, hst⟩ => ⟨st, hst, h⟩⟩

end Search

namespace LongName

/-- A folder as the bundle. -/
def search : Search := ⟨[""], some (.folder ⟨1, []⟩)⟩

/-- No files at all. -/
def files : FileTree := ⟨[], []⟩

/-- The letters of a name with one byte too many. -/
def letters : List Char := List.replicate 256 'a'

/-- The name. -/
def name : String := String.ofList letters

/-- The path of the name in the bundle. -/
def path : Path := ⟨1, [name]⟩

/-- What a search for the name ends with. -/
def refusal : Failure := .refused (.atPath 36 "File name too long" path.text)

/-- The name is one part, as there is no slash in it. -/
theorem ofText_name : Path.ofText name = ⟨0, [name]⟩ :=
  Bundle.ofText_of_not_mem (by decide +kernel : '/' ∉ letters)

/-- The path is the first place for the name. -/
theorem candidates_name :
    search.candidates name "" = [.bundled path, .bundled ⟨1, ["config", name]⟩] := by
  have hhint : Search.isAbsoluteHint "" = false := by decide +kernel
  have hfolder : (Path.ofText Search.defaultFolder).parts = ["config"] := by decide +kernel
  simp [Search.candidates, search, hhint, Bundle.under, ofText_name, hfolder, path]

/-- The path is written as a slash and the name. -/
theorem text_path : path.text = String.ofList ('/' :: letters) := by
  have hletters : letters ≠ [] := by decide
  simp [path, Path.text, name, hletters]

/-- The path leads nowhere, by the length of the name. -/
theorem find_path : files.find path = .error .tooLong := by
  have hname : FileTree.byteLength name = 256 := by
    rw [name, FileTree.byteLength, String.toList_ofList]
    decide +kernel
  have hnul : path.text.toList.contains '\x00' = false := by
    rw [text_path, String.toList_ofList]
    decide +kernel
  exact files.find_of_long hnul (hname ▸ by decide)

/-- A search for the name finds nothing but fails. -/
theorem found_refused : search.found files name "" = .error refusal := by
  have hfailure : (Candidate.bundled path).failure? files = some refusal :=
    Candidate.failure?_eq_some_iff.mpr (.inr (.inl ⟨path, rfl, find_path, rfl⟩))
  have hlook : Candidate.firstLook files search.bundle (search.candidates name "") =
      .error refusal :=
    Candidate.firstLook_eq_error_iff.mpr ⟨[], .bundled path, _, candidates_name,
      fun _ hx => absurd hx List.not_mem_nil, Candidate.look_eq_error_iff.mpr hfailure⟩
  exact (search.found_eq_firstLook files name "").trans hlook

/-- A search fails for a file that is not there, by its name alone. -/
theorem search_refused : files.find path = .error .tooLong ∧
    ((search.locate files name "").run.run .empty).1 = .error refusal := by
  refine ⟨find_path, ?_⟩
  rw [search.tells_locate, found_refused]

/-- Asking for the text of the file fails so, with nothing in the cache. -/
theorem text_refused : refusal.OfSearch ∧
    (((Getter.string name "").ask ⟨files, .inMay 0 12 0⟩ ⟨search, Overlay.nothing⟩).run.run
      ⟨.empty, .empty⟩).1 = .error refusal := by
  have hsearch : refusal.OfSearch := trivial
  have hfailure : search.failure? files "" [name] = some refusal := by
    rw [Search.failure?, found_refused]
  refine ⟨hsearch, ((search.search_fails_iff .nothing ⟨files, .inMay 0 12 0⟩ refusal
    ).2.2.2 hsearch (.string name "") ⟨.empty, .empty⟩).mpr ⟨hfailure, ?_⟩⟩
  exact Search.computes_empty rfl _ _

end LongName
end Stratum
