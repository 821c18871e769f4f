import Stratum.Proofs.Engine.SearchFailures
import Stratum.Proofs.Resolve.Typed

/-!
# Which file is blamed

What a request that ends with content that cannot be used says of the file. The source is the stream
that the search for the deciding file finds, the last line told is a warning with this source in it,
and the fault is the one that the parser or the decoder ends with, or that the document is no
mapping. Only what the host's own code raises of its own is passed on as it is
(`Search.malformed_blamed`).
-/

namespace Stratum

/-- The source that a failure names if it says that content cannot be used: the library's own, and
such an error of the host's code. -/
def Failure.malformedSource? : Failure → Option String
  | .malformed m => some m.source
  | .host ⟨.malformed source, _⟩ => some source
  | _ => none

/-! ## Faults of documents -/

namespace Document

/-- The faults that a document's content has where a mapping is wanted: the fault that decoding or
parsing it ends with, or, of what is parsed to something else than a mapping, the kind of it. -/
inductive HasFault (bytes : List UInt8) (name : String) (heap : Heap) : ContentFault → Prop
  | jsonNotText {fault : Text.Utf8.Fault} (hname : endsIn ".json" name = true)
      (hdecode : Text.Utf8.decode bytes = .error fault) :
      HasFault bytes name heap (.jsonNotText fault)
  | json {text : List Char} {problem : Json.Problem} {offset line column : Nat}
      (hname : endsIn ".json" name = true) (hdecode : Text.Utf8.decode bytes = .ok text)
      (hread : Json.read text = .error (.malformed problem offset))
      (hplace : Json.place text offset = (line, column)) :
      HasFault bytes name heap (.json problem line column)
  | yaml {fault : Yaml.Fault} (hname : endsIn ".json" name = false)
      (hload : Yaml.load bytes heap = .error fault) : HasFault bytes name heap (.yaml fault)
  | notMapping {s : Slot} {heap' : Heap}
      (hparse : ∀ log, (parse bytes name).run.run ⟨heap, log⟩ = (.ok s, ⟨heap', log⟩))
      (hnull : s ≠ .atom .null) (hnone : heap'.entries? s = none) :
      HasFault bytes name heap (.notMapping (heap'.kindName s))

variable {bytes : List UInt8} {name : String} {st st' : Store} {m : Malformed}

/-- What is said of a JSON document is a fault of its content. -/
theorem hasFault_of_ofJson (hname : endsIn ".json" name = true)
    (h : (ofJson bytes name).run.run st = (.error (.malformed m), st')) :
    HasFault bytes name st.heap m.fault := by
  unfold ofJson at h
  rcases hdecode : Text.Utf8.decode bytes with fault | text
  · rw [hdecode] at h
    obtain ⟨rfl⟩ := Prod.mk.inj h |>.1
    exact .jsonNotText hname hdecode
  · rw [hdecode] at h
    dsimp only at h
    by_cases hblank : text.all Text.isBlank = true
    · rw [if_pos hblank] at h
      cases congrArg Prod.fst h
    · rw [if_neg hblank] at h
      rcases hread : Json.read text with (⟨problem, offset⟩ | fault) | v
      · rw [hread] at h
        obtain ⟨rfl⟩ := Prod.mk.inj h |>.1
        exact .json hname hdecode hread rfl
      · rw [hread] at h
        cases congrArg Prod.fst h
      · rw [hread] at h
        cases congrArg Prod.fst h

/-- What is said of a YAML document is a fault of its content. -/
theorem hasFault_of_ofYaml (hname : endsIn ".json" name = false)
    (h : (ofYaml bytes name).run.run st = (.error (.malformed m), st')) :
    HasFault bytes name st.heap m.fault := by
  have hget : (get : Act Store).run.run st = (.ok st, st) := rfl
  unfold ofYaml at h
  rw [Act.run_bind, hget] at h
  dsimp only at h
  rcases hload : Yaml.load bytes st.heap with fault | ⟨s, heap⟩
  · rw [hload] at h
    cases fault with
    | scalar fault => cases congrArg Prod.fst h
    | _ =>
      obtain ⟨rfl⟩ := Prod.mk.inj h |>.1
      exact .yaml hname hload
  · rw [hload] at h
    cases congrArg Prod.fst h

/-- What is said of a document is a fault of its content. -/
theorem hasFault_of_parse (h : (parse bytes name).run.run st = (.error (.malformed m), st')) :
    HasFault bytes name st.heap m.fault := by
  unfold parse at h
  by_cases hname : endsIn ".json" name = true
  · rw [if_pos hname] at h
    exact hasFault_of_ofJson hname h
  · rw [if_neg hname] at h
    exact hasFault_of_ofYaml (by simpa using hname) h

/-- A document is read without telling anything. -/
theorem silent_parse (bytes : List UInt8) (name : String) : (parse bytes name).Silent := by
  unfold parse
  split
  · exact silent_ofJson bytes name
  · exact silent_ofYaml bytes name

/-- What is said of a document that is wanted to be a mapping is a fault of its content. -/
theorem hasFault_of_parseMapping
    (h : (parseMapping bytes name).run.run st = (.error (.malformed m), st')) :
    HasFault bytes name st.heap m.fault := by
  unfold parseMapping at h
  obtain ⟨r, heap, hparse⟩ := silent_parse bytes name st.heap
  have hst : (parse bytes name).run.run st = (r, ⟨heap, st.log⟩) := hparse st.log
  rw [Act.run_bind, hst] at h
  rcases r with e | s
  · obtain ⟨rfl⟩ := Prod.mk.inj h |>.1
    exact hasFault_of_parse hst
  · dsimp only at h
    split at h
    · cases congrArg Prod.fst h
    · rename_i hnull
      have hlook : (Act.look (·.entries? s)).run.run ⟨heap, st.log⟩ =
        (.ok (heap.entries? s), ⟨heap, st.log⟩) := rfl
      rw [Act.run_bind, hlook] at h
      dsimp only at h
      split at h
      · cases congrArg Prod.fst h
      · rename_i hnone
        obtain ⟨rfl⟩ := Prod.mk.inj h |>.1
        exact .notMapping hparse hnull (by simpa using hnone)

/-- A document that is wanted to be a mapping fails in no other way that says its content cannot be
used. -/
theorem parseMapping_only_malformed (bytes : List UInt8) (name : String) :
    (parseMapping bytes name).FailsAs fun e =>
      e.malformedSource?.isSome = true → ∃ m, e = .malformed m := by
  intro st e st' hrun hsaid
  have hcontent := run_parseMapping bytes name st
  rcases hstray : stray? bytes name st.heap with _ | f
  · rw [hstray, hrun] at hcontent
    obtain ⟨s, ⟨⟩⟩ | ⟨fault, ⟨⟩⟩ := hcontent
    exact ⟨_, rfl⟩
  · rw [hstray, hrun] at hcontent
    obtain rfl := Except.error.inj (congrArg Prod.fst hcontent)
    obtain ⟨fault, rfl⟩ | ⟨fault, rfl⟩ := stray?_cases hstray <;> cases hsaid

end Document

/-! ## Blame -/

namespace Search

variable {s : Search} {t : FileTree} {p : Provider} {o : Overlay} {name hint filename : String}
  {e : Failure} {st st' : Store} {stream : Stream} {bytes : List UInt8}

/-- A file that is found is blamed for its content at the end of a log. -/
structure Blames (s : Search) (t : FileTree) (filename hint : String) (stream : Stream)
    (m : Malformed) (log : List Line) : Prop where
  /-- The stream is what the search for the file finds. -/
  located : s.found t filename hint = .ok (some stream)
  /-- The source is the name of the stream, and that of the file if the stream has none. -/
  source : m.source = Text.escape (stream.name.getD filename)
  /-- The last line is a warning with the source in it. -/
  last : ∃ earlier before after,
    log = earlier ++ [⟨.warning, topic, before ++ m.source ++ after⟩]

/-- A search does not end with content that cannot be used. -/
theorem ofSearch_of_found (h : s.found t filename hint = .error e) : e.OfSearch := by
  rw [found_eq_firstLook] at h
  obtain ⟨_, c, _, _, _, hlook⟩ := Candidate.firstLook_eq_error_iff.1 h
  obtain ⟨_, _, _, rfl⟩ | ⟨_, _, _, rfl⟩ | ⟨_, _, _, _, _, rfl⟩ :=
    Candidate.failure?_eq_some_iff.1 (Candidate.look_eq_error_iff.1 hlook)
  · trivial
  · trivial
  · trivial

/-- A failure of a search does not say that content cannot be used. -/
theorem malformedSource?_of_ofSearch (h : e.OfSearch) : ¬ e.malformedSource?.isSome = true := by
  intro hsaid
  cases e with
  | nulInPath | refused => cases hsaid
  | _ => exact h

/-- A file that is found and can be read is blamed for its content. -/
theorem blames_of_mappingOf (hreadable : s.readable t filename hint = some (stream, bytes))
    (hsaid : e.malformedSource?.isSome = true)
    (hrun : (Resolver.mappingOf stream filename bytes).run.run st = (.error e, st')) :
    ∃ m, e = .malformed m ∧ s.Blames t filename hint stream m st'.log ∧
      Document.HasFault bytes filename st.heap m.fault := by
  obtain ⟨r, heap, hparse⟩ := Document.silent_parseMapping bytes filename st.heap
  have hst : (Document.parseMapping bytes filename).run.run st = (r, ⟨heap, st.log⟩) :=
    hparse st.log
  have hlocated := (found_of_readable hreadable).1
  have hmapping : (Resolver.mappingOf stream filename bytes).run.run st = _ :=
    run_mappingOf hparse st.log
  rcases r with f | config
  · cases f with
    | malformed m =>
      have hfault := Document.hasFault_of_parseMapping hst
      obtain ⟨he, rfl⟩ := Prod.mk.inj (hrun.symm.trans hmapping)
      obtain rfl := Except.error.inj he
      exact ⟨_, rfl, ⟨hlocated, rfl, st.log, m.message ++ " (", ")", rfl⟩, hfault⟩
    | _ =>
      obtain ⟨he, rfl⟩ := Prod.mk.inj (hrun.symm.trans hmapping)
      obtain rfl := Except.error.inj he
      obtain ⟨m, ⟨⟩⟩ := Document.parseMapping_only_malformed bytes filename _ _ _ hst hsaid
  · cases congrArg Prod.fst (hrun.symm.trans hmapping)

/-- Of the files of a name with some extensions, the first one that can be read is blamed. -/
theorem blames_of_loadFirst (extensions : List String) (hsaid : e.malformedSource?.isSome = true)
    (hrun : ((Resolver.mk s p).loadFirst t name hint extensions).run.run st = (.error e, st')) :
    ∃ skipped x later stream bytes m, extensions = skipped ++ x :: later ∧
      (∀ y ∈ skipped, ∃ found, s.found t (name ++ y) hint = .ok found) ∧
      (∀ y ∈ skipped, s.readable t (name ++ y) hint = none) ∧
      s.readable t (name ++ x) hint = some (stream, bytes) ∧ e = .malformed m ∧
      s.Blames t (name ++ x) hint stream m st'.log ∧
      Document.HasFault bytes (name ++ x) st.heap m.fault := by
  -- The first extension whose file is read decides. A search that fails raises no such error, and
  -- those that find nothing are passed over.
  induction extensions generalizing st with
  | nil => cases congrArg Prod.fst hrun
  | cons x rest ih =>
    rw [Resolver.loadFirst, Act.run_bind] at hrun
    rcases hfound : s.found t (name ++ x) hint with f | found
    · rw [run_load_of_error hfound] at hrun
      obtain rfl := Except.error.inj (congrArg Prod.fst hrun)
      exact absurd hsaid (malformedSource?_of_ofSearch (ofSearch_of_found hfound))
    · rcases hreadable : s.readable t (name ++ x) hint with _ | ⟨stream, bytes⟩
      · rw [tells_load_of_missed hfound hreadable] at hrun
        obtain ⟨skipped, y, later, stream, bytes, m, rfl, hfounds, hmissed, hlast⟩ := ih hrun
        exact ⟨x :: skipped, y, later, stream, bytes, m, rfl,
          List.forall_mem_cons.mpr ⟨⟨found, hfound⟩, hfounds⟩,
          List.forall_mem_cons.mpr ⟨hreadable, hmissed⟩, hlast⟩
      · rw [run_load_of_readable hreadable, Act.run_bind] at hrun
        rcases hmapping : (Resolver.mappingOf stream (name ++ x) bytes).run.run
          { st with log := st.log ++ s.told t (name ++ x) hint } with ⟨f | config, st₁⟩
        · rw [hmapping] at hrun
          obtain ⟨he, rfl⟩ := Prod.mk.inj hrun
          obtain rfl := Except.error.inj he
          obtain ⟨m, hm, hblames, hfault⟩ := blames_of_mappingOf hreadable hsaid hmapping
          exact ⟨[], x, rest, stream, bytes, m, rfl, fun _ h => absurd h List.not_mem_nil,
            fun _ h => absurd h List.not_mem_nil, hreadable, hm, hblames, hfault⟩
        · rw [hmapping] at hrun
          cases congrArg Prod.fst hrun

/-- The file that decides a name is blamed for its content: it is the first one that can be read
among those of the extensions. -/
def Blamed (s : Search) (t : FileTree) (name hint : String) (heap : Heap) (e : Failure)
    (log : List Line) : Prop :=
  ∃ x stream bytes m, e = .malformed m ∧ s.Decides t name hint x stream bytes ∧
    s.Blames t (name ++ x) hint stream m log ∧ Document.HasFault bytes (name ++ x) heap m.fault

/-- Whatever is done with the config of a name, content that cannot be used is blamed on the file
that decides, unless it is what is done with the config that ends so. -/
theorem blamed_of_bind {finish : Option Slot → Act (Option Slot)}
    (hsaid : e.malformedSource?.isSome = true)
    (hrun : ((Resolver.mk s p).loadFirst t name hint Document.extensions >>= finish).run.run st =
      (.error e, st')) :
    s.Blamed t name hint st.heap e st'.log ∨
      ∃ found st₁, (finish found).run.run st₁ = (.error e, st') := by
  rw [Act.run_bind] at hrun
  rcases hload : ((Resolver.mk s p).loadFirst t name hint Document.extensions).run.run st with
    ⟨f | found, st₁⟩
  · rw [hload] at hrun
    obtain ⟨he, rfl⟩ := Prod.mk.inj hrun
    obtain rfl := Except.error.inj he
    obtain ⟨skipped, x, later, stream, bytes, m, hextensions, hfound, hmissed, hreadable, hm,
      hblames, hfault⟩ := blames_of_loadFirst Document.extensions hsaid hload
    exact .inl ⟨x, stream, bytes, m, hm, ⟨skipped, later, hextensions, hfound, hmissed, hreadable⟩,
      hblames, hfault⟩
  · rw [hload] at hrun
    exact .inr ⟨found, st₁, hrun⟩

/-- A merge does not say that content cannot be used. -/
theorem mergeMap_not_malformed (o : Overlay) (config : Slot) :
    (o.mergeMap config).FailsAs fun e => ¬ e.malformedSource?.isSome = true := by
  intro st e st' hrun
  have houtcome := o.mergeMap_outcome config st
  rw [hrun] at houtcome
  obtain ⟨⟨⟩⟩ | ⟨values, exempt, -, ⟨lower, -, -, ⟨⟩⟩ | ⟨fault, -, ⟨⟩⟩⟩ := houtcome
  · exact Bool.false_ne_true
  · exact Bool.false_ne_true

/-- Nor does an overlay. -/
theorem overlaid_not_malformed (o : Overlay) (name : String) (config : Slot) :
    (o.provider.overlaid name config).FailsAs fun e => ¬ e.malformedSource?.isSome = true := by
  unfold Provider.overlaid
  refine (Act.failsAs_pure (o.isExempt name)).bind fun exempt => ?_
  dsimp only
  split
  · exact (Act.failsAs_tell _ _ _).bind fun _ => Act.failsAs_pure _
  · exact (mergeMap_not_malformed o config).bind fun _ => Act.failsAs_pure _

/-- A mapping that cannot be given for its content is blamed on the file that decides. -/
theorem blamed_of_resolveMap (hsaid : e.malformedSource?.isSome = true)
    (hrun : ((Resolver.mk s o).resolveMap t name hint).run.run st = (.error e, st')) :
    s.Blamed t name hint st.heap e st'.log := by
  obtain hblamed | ⟨_ | config, st₁, hfinish⟩ := blamed_of_bind hsaid hrun
  · exact hblamed
  · cases congrArg Prod.fst hfinish
  · exact absurd hsaid (overlaid_not_malformed o name config st₁ e st' hfinish)

/-- Making a mapping into a shape says that content cannot be used only as the constructor of the
shape says it. -/
theorem build_malformed (shape : Shape) (config : Slot) : (shape.build config).FailsAs fun e =>
    e.malformedSource?.isSome = true →
      ∃ raised, shape.rejection? = some raised ∧ e = .host raised := by
  refine (shape.failsAs_build config).mono fun e he hsaid => ?_
  cases he with
  | host h => exact ⟨_, h, rfl⟩
  | misuse | number => cases hsaid

/-- An object that cannot be given for the content of a file is blamed on the file that decides,
unless it is the constructor of the shape that says so. -/
theorem blamed_of_resolveObject {shape : Shape} (hsaid : e.malformedSource?.isSome = true)
    (hrun : ((Resolver.mk s o).resolveObject t name shape hint).run.run st = (.error e, st')) :
    s.Blamed t name hint st.heap e st'.log ∨
      ∃ raised, shape.rejection? = some raised ∧ e = .host raised := by
  rw [Resolver.resolveObject_eq, Act.run_bind] at hrun
  rcases hmap : ((Resolver.mk s o).resolveMap t name hint).run.run st with ⟨f | _ | config, st₁⟩
  · rw [hmap] at hrun
    obtain ⟨he, rfl⟩ := Prod.mk.inj hrun
    obtain rfl := Except.error.inj he
    exact .inl (blamed_of_resolveMap hsaid hmap)
  · rw [hmap] at hrun
    cases congrArg Prod.fst hrun
  · rw [hmap] at hrun
    have hbuild : (do return some (← shape.build config) : Act (Option Slot)).FailsAs _ :=
      (build_malformed shape config).bind fun _ => Act.failsAs_pure _
    exact .inr (hbuild st₁ e st' hrun hsaid)

/-- A text that cannot be given is blamed on the file, by the fault that decoding it ends with. -/
theorem blames_of_resolveString (hsaid : e.malformedSource?.isSome = true)
    (hrun : ((Resolver.mk s p).resolveString t filename hint).run.run st = (.error e, st')) :
    ∃ stream bytes fault m, e = .malformed m ∧ stream.content = .ok bytes ∧
      Text.Utf8.decode bytes = .error fault ∧ m.fault = .notText fault ∧
      s.Blames t filename hint stream m st'.log := by
  rw [Resolver.resolveString, Act.run_bind, s.tells_locate] at hrun
  -- Of all the ways to end, only content that is no UTF-8 is malformed.
  rcases hfound : s.found t filename hint with f | _ | stream
  · rw [hfound] at hrun
    obtain rfl := Except.error.inj (congrArg Prod.fst hrun)
    exact absurd hsaid (malformedSource?_of_ofSearch (ofSearch_of_found hfound))
  · rw [hfound] at hrun
    cases congrArg Prod.fst hrun
  · rw [hfound] at hrun
    dsimp only at hrun
    rcases hcontent : stream.content with refusal | bytes
    · rw [hcontent] at hrun
      cases congrArg Prod.fst hrun
    · rw [hcontent] at hrun
      dsimp only at hrun
      rcases hdecode : Text.Utf8.decode bytes with fault | cs
      · rw [hdecode] at hrun
        obtain ⟨he, rfl⟩ := Prod.mk.inj hrun
        obtain rfl := Except.error.inj he
        refine ⟨stream, bytes, fault, _, rfl, hcontent, hdecode, rfl, hfound, rfl,
          st.log ++ s.told t filename hint, "Config file is not valid UTF-8: ", "", ?_⟩
        rw [String.append_empty]
        rfl
      · rw [hdecode] at hrun
        cases congrArg Prod.fst hrun

/-- Content that cannot be used is blamed on the file that was found. Where a mapping is wanted,
this is the first file that can be read, whatever is done with the mapping, unless it is what is
done with it that says so. So a mapping is never refused otherwise, and an object only by the
constructor of its shape, whose error is passed on as it is. Where a text is wanted, this is the
file that the search finds. The source is the name of the stream, the last line is a warning with
the source in it, and the fault is that of the parser or the decoder, or that there is no
mapping. -/
theorem malformed_blamed (s : Search) (t : FileTree) (o : Overlay) (hint : String) {e : Failure}
    {st st' : Store} (hsaid : e.malformedSource?.isSome = true) :
    (∀ p name finish,
      ((Resolver.mk s p).loadFirst t name hint Document.extensions >>= finish).run.run st =
        ((.error e : Except Failure (Option Slot)), st') →
      s.Blamed t name hint st.heap e st'.log ∨
        ∃ found st₁, (finish found).run.run st₁ = (.error e, st')) ∧
    (∀ name, ((Resolver.mk s o).resolveMap t name hint).run.run st = (.error e, st') →
      s.Blamed t name hint st.heap e st'.log) ∧
    (∀ name shape,
      ((Resolver.mk s o).resolveObject t name shape hint).run.run st = (.error e, st') →
      s.Blamed t name hint st.heap e st'.log ∨
        ∃ raised, shape.rejection? = some raised ∧ e = .host raised) ∧
    ∀ p filename, ((Resolver.mk s p).resolveString t filename hint).run.run st = (.error e, st') →
      ∃ stream bytes fault m, e = .malformed m ∧ stream.content = .ok bytes ∧
        Text.Utf8.decode bytes = .error fault ∧ m.fault = .notText fault ∧
        s.Blames t filename hint stream m st'.log :=
  ⟨fun _ _ _ => blamed_of_bind hsaid, fun _ => blamed_of_resolveMap hsaid,
    fun _ _ => blamed_of_resolveObject hsaid, fun _ _ => blames_of_resolveString hsaid⟩

end Search

/-! One file of a name, and a shape whose constructor complains of content by itself. -/
namespace OtherComplaint

/-- One directory to look into. -/
def search : Search := ⟨["/d"], none⟩

/-- A file with some bytes in it. -/
def files (bytes : List UInt8) : FileTree :=
  ⟨[(["d"], .folder), (["d", "x.json"], .file bytes)], []⟩

/-- A byte that is in no text. -/
def broken : List UInt8 := [0xff]

/-- A record whose constructor says that the content of something else cannot be used. -/
def shape : Shape := .record ⟨"Strict", [], some ⟨.malformed "elsewhere", "bad"⟩⟩

/-- The name of the file is that of a JSON file. -/
theorem isJson : Document.endsIn ".json" "x.json" = true := by decide +kernel

/-- What is said of a file that is no text. -/
theorem parse_broken (log : List Line) :
    (Document.parseMapping broken "x.json").run.run ⟨.empty, log⟩ =
      (.error (.malformed ⟨.jsonNotText ⟨0, broken, .invalidStart⟩, Text.escape "x.json",
        Text.escape "x.json"⟩), ⟨.empty, log⟩) := by
  have hdecode : Text.Utf8.decode broken = .error ⟨0, broken, .invalidStart⟩ := rfl
  rw [Document.parseMapping, Document.parse, isJson, if_pos rfl, Document.ofJson, hdecode]
  rfl

/-- An empty file is an empty mapping. -/
theorem parse_empty (log : List Line) :
    (Document.parseMapping [] "x.json").run.run ⟨.empty, log⟩ =
      (.ok (.ref 0), ⟨⟨#[.map []]⟩, log⟩) := by
  have hdecode : Text.Utf8.decode [] = .ok [] := rfl
  rw [Document.parseMapping, Document.parse, isJson, if_pos rfl, Document.ofJson, hdecode]
  rfl

/-- What is found for the three extensions. -/
theorem found_files (bytes : List UInt8) :
    (∀ x ∈ [".yml", ".yaml"], search.found (files bytes) ("x" ++ x) "" = .ok none) ∧
      search.found (files bytes) "x.json" "" = .ok (some ⟨some "/d/x.json", .ok bytes⟩) := by
  simp only [List.forall_mem_cons]
  exact ⟨⟨rfl, rfl, fun _ h => absurd h List.not_mem_nil⟩, rfl⟩

/-- The lines about the three extensions. -/
def lines (bytes : List UInt8) : List Line :=
  ([".yml", ".yaml"].flatMap fun x => search.missed (files bytes) ("x" ++ x) "") ++
    search.told (files bytes) "x.json" ""

/-- None of them is a warning. -/
theorem lines_quiet : ∀ line ∈ lines [], line.level ≠ .warning := by decide +kernel

/-- What is resolved is what the content of the file comes to. -/
theorem run_resolveMap {bytes : List UInt8} {r : Except Failure Slot} {heap : Heap}
    (hparse : ∀ log, (Document.parseMapping bytes "x.json").run.run ⟨.empty, log⟩ =
      (r, ⟨heap, log⟩)) :
    ((Resolver.mk search Overlay.nothing).resolveMap (files bytes) "x" "").run.run .empty =
      Overlay.nothing.provider.conclude "x" "x.json" ⟨some "/d/x.json", .ok bytes⟩
        ⟨heap, lines bytes⟩ r := by
  obtain ⟨hmissed, hfound⟩ := found_files bytes
  have hextensions : Document.extensions = [".yml", ".yaml"] ++ ".json" :: [] := rfl
  have hnone : ∀ x ∈ [".yml", ".yaml"], search.readable (files bytes) ("x" ++ x) "" = none :=
    fun x hx => by rw [Search.readable, hmissed x hx]
  have hreadable : search.readable (files bytes) ("x" ++ ".json") "" =
      some (⟨some "/d/x.json", .ok bytes⟩, bytes) := by
    show search.readable (files bytes) "x.json" "" = _
    rw [Search.readable, hfound]
    rfl
  have hname : "x" ++ ".json" = "x.json" := rfl
  rw [← hname] at hparse ⊢
  exact Search.run_resolveMap_of_readable hextensions (fun x hx => ⟨_, hmissed x hx⟩) hnone
    hreadable hparse Overlay.nothing.provider

/-- A file that is no text is blamed by its path. -/
theorem broken_blamed : ∃ e st',
    ((Resolver.mk search Overlay.nothing).resolveMap (files broken) "x" "").run.run .empty =
      (.error e, st') ∧
    e.malformedSource? = some "/d/x.json" ∧
    search.Blamed (files broken) "x" "" .empty e st'.log := by
  have hrun := run_resolveMap parse_broken
  have hsource : Text.escape "/d/x.json" = "/d/x.json" := by decide +kernel
  exact ⟨_, _, hrun, congrArg some hsource,
    (search.malformed_blamed (files broken) .nothing "" rfl).2.1 "x" hrun⟩

/-- The constructor's complaint is passed on: it does not name the file that was found, and no line
warns of it. -/
theorem complaint_passed_on :
    search.found (files []) "x.json" "" = .ok (some ⟨some "/d/x.json", .ok []⟩) ∧
    ∃ e st',
      ((Resolver.mk search Overlay.nothing).resolveObject (files []) "x" shape "").run.run .empty =
        (.error e, st') ∧
      e.malformedSource? = some "elsewhere" ∧ ∀ line ∈ st'.log, line.level ≠ .warning := by
  have hrun := run_resolveMap parse_empty
  refine ⟨(found_files []).2, .host ⟨.malformed "elsewhere", "bad"⟩, ⟨⟨#[.map []]⟩, lines []⟩, ?_,
    rfl, lines_quiet⟩
  rw [Resolver.resolveObject_eq, Act.run_bind, hrun]
  rfl

end OtherComplaint
end Stratum
