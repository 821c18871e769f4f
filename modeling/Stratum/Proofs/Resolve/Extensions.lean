import Mathlib.Data.List.Basic
import Stratum.Proofs.Engine.Table
import Stratum.Proofs.Resolve.Parsing
import Stratum.Proofs.Search.Telling
import Stratum.Proofs.Search.Ways
import Stratum.Resolve

/-!
# One extension after the other

A name is resolved by the first extension whose file is found and can be read: all tiers are
searched for one extension before the next one is tried, and what the file holds decides, even if it
cannot be used. So what the tiers have for later extensions does not matter, unless it stands on the
way to a file that is looked for.
-/

namespace Stratum

/-! ## Providers -/

/-- What a provider makes of the config of a name. -/
def Provider.overlaid (p : Provider) (name : String) (config : Slot) : Act (Option Slot) := do
  if ← p.isExempt name then Resolver.reportExempt name else p.mergeMap config
  return some config

namespace Search

variable {s s' : Search} {t t' : FileTree} {p q : Provider} {name hint filename : String}

/-- Which provider a resolver has makes no difference to what it loads. -/
theorem loadFirst_congr (extensions : List String) :
    (Resolver.mk s p).loadFirst t name hint extensions =
      (Resolver.mk s q).loadFirst t name hint extensions := by
  induction extensions with
  | nil => rfl
  | cons e rest ih =>
    unfold Resolver.loadFirst
    rw [ih]
    rfl

/-! ## One extension -/

/-- The stream and the bytes of a file that is found and can be read. -/
def readable (s : Search) (t : FileTree) (filename hint : String) : Option (Stream × List UInt8) :=
  match s.found t filename hint with
  | .ok (some stream) => stream.content.toOption.map (stream, ·)
  | _ => none

/-- The line about a stream that cannot be read. -/
def unreadLine (stream : Stream) (filename : String) (r : Refusal) : Line :=
  ⟨.warning, topic,
    "Unable to read " ++ Resolver.describe stream filename ++ ": " ++ Text.escape r.message⟩

/-- The lines about a file that is not found or cannot be read. -/
def missed (s : Search) (t : FileTree) (filename hint : String) : List Line :=
  s.told t filename hint ++
    match s.found t filename hint with
    | .ok (some ⟨name, .error r⟩) => [unreadLine ⟨name, .error r⟩ filename r]
    | _ => []

/-- A file that is found and can be read was found. -/
theorem found_of_readable {stream : Stream} {bytes : List UInt8}
    (h : s.readable t filename hint = some (stream, bytes)) :
    s.found t filename hint = .ok (some stream) ∧ stream.content = .ok bytes := by
  unfold readable at h
  split at h
  · rename_i stream' hfound
    obtain ⟨bytes', hbytes, heq⟩ := Option.map_eq_some_iff.mp h
    injection heq with hstream heq
    subst hstream heq
    refine ⟨hfound, ?_⟩
    rcases hcontent : stream'.content with r | bytes
    · rw [hcontent] at hbytes
      contradiction
    · rw [hcontent] at hbytes
      exact congrArg Except.ok (Option.some.inj hbytes)
  · contradiction

/-- A file that is not found or cannot be read is passed over, with the lines about it. -/
theorem tells_load_of_missed {found : Option Stream} (hfound : s.found t filename hint = .ok found)
    (h : s.readable t filename hint = none) :
    ((Resolver.mk s p).load t filename hint).Tells (.ok none) (s.missed t filename hint) := by
  have hlocate := s.tells_locate t filename hint
  unfold Resolver.load
  unfold missed
  unfold readable at h
  rw [hfound] at hlocate h ⊢
  rcases found with _ | ⟨name, r | bytes⟩
  · exact hlocate.bind (Act.tells_pure none)
  · exact hlocate.bind (Act.Tells.bind (Act.tells_tell _ _ _) (Act.tells_pure none))
  · contradiction

/-- A file that is found and can be read is parsed, after the lines about the search. -/
theorem run_load_of_readable {stream : Stream} {bytes : List UInt8}
    (h : s.readable t filename hint = some (stream, bytes)) (st : Store) :
    ((Resolver.mk s p).load t filename hint).run.run st =
      (do return some (← Resolver.mappingOf stream filename bytes) : Act (Option Slot)).run.run
        { st with log := st.log ++ s.told t filename hint } := by
  obtain ⟨hfound, hcontent⟩ := found_of_readable h
  have hlocate := s.tells_locate t filename hint
  rw [hfound] at hlocate
  unfold Resolver.load
  rw [Act.run_bind, hlocate st]
  dsimp only
  rw [hcontent]

/-- The line about a file that cannot be used. -/
def malformedLine (m : Malformed) (source : String) : Line :=
  ⟨.warning, topic, m.message ++ " (" ++ source ++ ")"⟩

end Search

/-- What a provider makes of what parsing came to: of a mapping its config, of content that cannot
be used the failure with the stream for its source, and of other failures nothing. -/
def Provider.conclude (p : Provider) (name filename : String) (stream : Stream) (st : Store) :
    Except Failure Slot → Except Failure (Option Slot) × Store
  | .ok config => (p.overlaid name config).run.run st
  | .error (.malformed m) =>
    let source := Resolver.describe stream filename
    (.error (.malformed { m with source }), st.say (Search.malformedLine m source))
  | .error e => (.error e, st)

namespace Search

variable {s s' : Search} {t t' : FileTree} {name hint e : String} {stream : Stream}
  {bytes : List UInt8} {r : Except Failure Slot} {heap : Heap} {st : Store}

/-- The mapping of a stream is what parsing comes to, but that what cannot be used is told to the
logger and put down to the stream. -/
theorem run_mappingOf {filename : String} {start heap : Heap}
    (hparse : ∀ log, (Document.parseMapping bytes filename).run.run ⟨start, log⟩ =
      (r, ⟨heap, log⟩)) (log : List Line) :
    (Resolver.mappingOf stream filename bytes).run.run ⟨start, log⟩ = match r with
      | .ok config => (.ok config, ⟨heap, log⟩)
      | .error (.malformed m) =>
        let source := Resolver.describe stream filename
        (.error (.malformed { m with source }), Store.say (malformedLine m source) ⟨heap, log⟩)
      | .error e => (.error e, ⟨heap, log⟩) := by
  unfold Resolver.mappingOf
  rw [Act.run_tryCatch, hparse]
  rcases r with e | config
  · cases e <;> rfl
  · rfl

/-- Extensions whose files are not found or cannot be read are passed over, one after the other. -/
theorem run_loadFirst_of_missed {p : Provider} {skipped : List String} (rest : List String)
    (hfound : ∀ x ∈ skipped, ∃ found, s.found t (name ++ x) hint = .ok found)
    (hmissed : ∀ x ∈ skipped, s.readable t (name ++ x) hint = none) (st : Store) :
    ((Resolver.mk s p).loadFirst t name hint (skipped ++ rest)).run.run st =
      ((Resolver.mk s p).loadFirst t name hint rest).run.run
        { st with log := st.log ++ skipped.flatMap fun x => s.missed t (name ++ x) hint } := by
  induction skipped generalizing st with
  | nil => simp
  | cons x skipped ih =>
    obtain ⟨⟨found, hx⟩, hfound⟩ := List.forall_mem_cons.mp hfound
    obtain ⟨hx', hmissed⟩ := List.forall_mem_cons.mp hmissed
    rw [List.cons_append, Resolver.loadFirst, Act.run_bind, tells_load_of_missed hx hx' st]
    dsimp only
    rw [ih hfound hmissed, List.flatMap_cons, List.append_assoc]

/-- The first extension whose file is found and can be read decides. -/
theorem run_resolveMap_of_readable {skipped later : List String}
    (hextensions : Document.extensions = skipped ++ e :: later)
    (hfound : ∀ x ∈ skipped, ∃ found, s.found t (name ++ x) hint = .ok found)
    (hmissed : ∀ x ∈ skipped, s.readable t (name ++ x) hint = none)
    (hreadable : s.readable t (name ++ e) hint = some (stream, bytes))
    (hparse : ∀ log, (Document.parseMapping bytes (name ++ e)).run.run ⟨st.heap, log⟩ =
      (r, ⟨heap, log⟩)) (p : Provider) :
    ((Resolver.mk s p).resolveMap t name hint).run.run st = p.conclude name (name ++ e) stream
      ⟨heap, st.log ++ (skipped.flatMap fun x => s.missed t (name ++ x) hint) ++
        s.told t (name ++ e) hint⟩ r := by
  unfold Resolver.resolveMap
  rw [hextensions, Act.run_bind, run_loadFirst_of_missed _ hfound hmissed,
    Resolver.loadFirst, Act.run_bind, run_load_of_readable hreadable, Act.run_bind]
  dsimp only
  rw [run_mappingOf hparse]
  rcases r with e | config
  · cases e <;> rfl
  · rfl

/-- A name of which no extension has a file that can be read is resolved to nothing. -/
theorem run_resolveMap_of_missed
    (hfound : ∀ e ∈ Document.extensions, ∃ found, s.found t (name ++ e) hint = .ok found)
    (hmissed : ∀ e ∈ Document.extensions, s.readable t (name ++ e) hint = none) (p : Provider)
    (st : Store) :
    ((Resolver.mk s p).resolveMap t name hint).run.run st = (.ok none, { st with
      log := st.log ++ Document.extensions.flatMap fun e => s.missed t (name ++ e) hint }) := by
  have hrun := run_loadFirst_of_missed (p := p) [] hfound hmissed st
  rw [List.append_nil] at hrun
  unfold Resolver.resolveMap
  rw [Act.run_bind, hrun]
  rfl

/-! ## What does not matter -/

/-- What is found and told is the same for searches that look at the same. -/
theorem SameWays.found_told (h : SameWays s t s' t' name hint) :
    s'.found t' name hint = s.found t name hint ∧ s'.told t' name hint = s.told t name hint := by
  unfold found told
  rw [h.locate]
  exact ⟨rfl, rfl⟩

/-- What can be read, and the lines about what cannot, are the same for searches that look at the
same. -/
theorem SameWays.readable_missed (h : SameWays s t s' t' name hint) :
    s'.readable t' name hint = s.readable t name hint ∧
      s'.missed t' name hint = s.missed t name hint := by
  obtain ⟨hfound, htold⟩ := h.found_told
  unfold readable missed
  rw [hfound, htold]
  exact ⟨rfl, rfl⟩

/-- Two searches that look at the same up to the extension that decides resolve a name alike. -/
theorem run_resolveMap_congr {skipped later : List String}
    (hextensions : Document.extensions = skipped ++ e :: later)
    (hfound : ∀ x ∈ skipped, ∃ found, s.found t (name ++ x) hint = .ok found)
    (hmissed : ∀ x ∈ skipped, s.readable t (name ++ x) hint = none)
    (hreadable : s.readable t (name ++ e) hint = some (stream, bytes))
    (hsame : ∀ x ∈ skipped ++ [e], SameWays s t s' t' (name ++ x) hint) (p : Provider)
    (st : Store) :
    ((Resolver.mk s' p).resolveMap t' name hint).run.run st =
      ((Resolver.mk s p).resolveMap t name hint).run.run st := by
  obtain ⟨r, heap, hparse⟩ := Document.silent_parseMapping bytes (name ++ e) st.heap
  have hskipped : ∀ x ∈ skipped, SameWays s t s' t' (name ++ x) hint :=
    fun x hx => hsame x (List.mem_append_left [e] hx)
  have hlast : SameWays s t s' t' (name ++ e) hint := hsame e (by simp)
  have hlines : (skipped.flatMap fun x => s'.missed t' (name ++ x) hint) =
      skipped.flatMap fun x => s.missed t (name ++ x) hint :=
    List.flatMap_congr fun x hx => (hskipped x hx).readable_missed.2
  have hfound' : ∀ x ∈ skipped, ∃ found, s'.found t' (name ++ x) hint = .ok found := by
    intro x hx
    rw [(hskipped x hx).found_told.1]
    exact hfound x hx
  have hmissed' : ∀ x ∈ skipped, s'.readable t' (name ++ x) hint = none :=
    fun x hx => (hskipped x hx).readable_missed.1.trans (hmissed x hx)
  have hreadable' := hlast.readable_missed.1.trans hreadable
  rw [run_resolveMap_of_readable hextensions hfound hmissed hreadable hparse,
    run_resolveMap_of_readable hextensions hfound' hmissed' hreadable' hparse, hlines,
    hlast.found_told.2]

/-- Where no search for a file of a name fails, the first extension whose file is found and can be
read decides, by what its content is in the format of the extension; without one there is no config,
and the provider is not asked. The lines told are those about the extensions up to that one, and a
provider is asked about a mapping only. Two file systems that agree on the ways to the files of
these extensions resolve the name alike. -/
theorem resolveMap_by_extension
    (hfound : ∀ e ∈ Document.extensions, ∃ found, s.found t (name ++ e) hint = .ok found) :
    ((∀ e ∈ Document.extensions, s.readable t (name ++ e) hint = none) → ∀ p st,
      ((Resolver.mk s p).resolveMap t name hint).run.run st = (.ok none, { st with
        log := st.log ++ Document.extensions.flatMap fun e => s.missed t (name ++ e) hint })) ∧
    ∀ skipped e later stream bytes, Document.extensions = skipped ++ e :: later →
      (∀ x ∈ skipped, s.readable t (name ++ x) hint = none) →
      s.readable t (name ++ e) hint = some (stream, bytes) →
        (∀ st : Store, ∃ r heap,
          (∀ log, (Document.parseMapping bytes (name ++ e)).run.run ⟨st.heap, log⟩ =
            (r, ⟨heap, log⟩)) ∧
          (∀ config, r = .ok config → (heap.entries? config).isSome = true) ∧
          ∀ p, ((Resolver.mk s p).resolveMap t name hint).run.run st =
            p.conclude name (name ++ e) stream
              ⟨heap, st.log ++ (skipped.flatMap fun x => s.missed t (name ++ x) hint) ++
                s.told t (name ++ e) hint⟩ r) ∧
        Document.parse bytes (name ++ e) = (if e = ".json" then Document.ofJson bytes (name ++ e)
          else Document.ofYaml bytes (name ++ e)) ∧
        ∀ s' t', (∀ x ∈ skipped ++ [e], SameWays s t s' t' (name ++ x) hint) → ∀ p st,
          ((Resolver.mk s' p).resolveMap t' name hint).run.run st =
            ((Resolver.mk s p).resolveMap t name hint).run.run st := by
  refine ⟨run_resolveMap_of_missed hfound, ?_⟩
  intro skipped e later stream bytes hextensions hmissed hreadable
  have hskipped : ∀ x ∈ skipped, ∃ found, s.found t (name ++ x) hint = .ok found :=
    fun x hx => hfound x (hextensions ▸ List.mem_append_left _ hx)
  refine ⟨fun st => ?_, ?_, ?_⟩
  · obtain ⟨r, heap, hparse⟩ := Document.silent_parseMapping bytes (name ++ e) st.heap
    refine ⟨r, heap, hparse, ?_, ?_⟩
    · rintro config rfl
      exact Document.isSome_entries?_of_parseMapping (hparse st.log)
    · exact run_resolveMap_of_readable hextensions hskipped hmissed hreadable hparse
  · have he : e ∈ Document.extensions :=
      hextensions ▸ List.mem_append_right skipped List.mem_cons_self
    exact Document.parse_of_mem he bytes name
  · intro s' t' hsame p st
    exact run_resolveMap_congr hextensions hskipped hmissed hreadable hsame p st

end Search

namespace LaterExtension

/-- One directory to look into. -/
def search : Search := ⟨["/d"], none⟩

/-- A mapping with another one in it, in YAML. -/
def content : List UInt8 := Text.Utf8.encode "k:\n  a: 1\n  b: 2\nc: 3\n".toList

/-- A mapping in JSON. -/
def other : List UInt8 := Text.Utf8.encode "\x7b\"k\": 5\x7d".toList

/-- A file in the second of the extensions. -/
def plain : FileTree := ⟨[(["d"], .folder), (["d", "x.yaml"], .file content)], []⟩

/-- The same, and a file in the third one. -/
def fuller : FileTree := ⟨[(["d"], .folder), (["d", "x.yaml"], .file content),
  (["d", "x.json"], .file other)], []⟩

/-- The number that names lead to in nested mappings. -/
def number? : Value → (path : List String) → Option Int
  | .atom (.int n), [] => some n
  | .map es, name :: path => (Entries.find? (.text name) es).bind (number? · path)
  | _, _ => none

/-- What the name is resolved to without managed values, read off. -/
def config? (t : FileTree) : Option Value :=
  match ((Resolver.mk search Overlay.nothing).resolveMap t "x" "").run.run .empty with
  | (.ok (some config), st) => some (st.heap.view config)
  | _ => none

/-- The file of the second extension decides, with no file in the first one, and the file of the
third one changes neither the config nor the log. -/
theorem fuller_resolves_alike :
    search.readable plain "x.yml" "" = none ∧
      (search.readable plain "x.yaml" "").isSome = true ∧
      (search.readable fuller "x.json" "").isSome = true ∧
      ((config? fuller).bind (number? · ["k", "b"])) = some 2 ∧
      ((Resolver.mk search Overlay.nothing).resolveMap fuller "x" "").run.run .empty =
        ((Resolver.mk search Overlay.nothing).resolveMap plain "x" "").run.run .empty := by
  have hfound : ∀ e ∈ Document.extensions, ∃ found,
      search.found plain ("x" ++ e) "" = .ok found := by
    simp only [Document.extensions, List.forall_mem_cons]
    exact ⟨⟨_, rfl⟩, ⟨_, rfl⟩, ⟨_, rfl⟩, fun e he => absurd he List.not_mem_nil⟩
  have hsame : ∀ x ∈ [".yml", ".yaml"], search.SameWays plain search fuller ("x" ++ x) "" := by
    intro x hx
    refine ⟨rfl, rfl, .none, ?_⟩
    revert x
    decide +kernel
  have hmissed : ∀ x ∈ [".yml"], search.readable plain ("x" ++ x) "" = none := by
    intro x hx
    obtain rfl := List.mem_singleton.mp hx
    rfl
  obtain ⟨-, -, hcongr⟩ := (Search.resolveMap_by_extension hfound).2 [".yml"] ".yaml" [".json"]
    ⟨some "/d/x.yaml", .ok content⟩ content rfl hmissed rfl
  exact ⟨rfl, rfl, rfl, by decide +kernel,
    hcongr search fuller hsame Overlay.nothing.provider .empty⟩

end LaterExtension

namespace InTheWay

open LaterExtension (content other)

/-- Three directories, of which the second one is where the first one would have a file of the last
extension. -/
def search : Search := ⟨["/c", "/c/x.json", "/d"], none⟩

/-- A file in the last directory, in the first of the extensions. -/
def plain : FileTree := ⟨[(["c"], .folder), (["d"], .folder), (["d", "x.yml"], .file content)], []⟩

/-- The same, and a file of the last extension in the first directory. -/
def blocked : FileTree := { plain with entries := (["c", "x.json"], .file other) :: plain.entries }

/-- Without managed values a line is told after the search only about content that cannot be
used. -/
theorem length_log_conclude (name filename : String) (stream : Stream) (st : Store)
    (r : Except Failure Slot) :
    (Overlay.nothing.provider.conclude name filename stream st r).2.log.length = st.log.length +
      match r with
      | .error (.malformed _) => 1
      | _ => 0 := by
  rcases r with e | config
  · cases e with
    | malformed m => exact List.length_append
    | _ => rfl
  · rfl

/-- A file of the last extension may change the log though the first extension decides: it stands in
the way of a directory that is looked into. -/
theorem log_of_blocked :
    (∀ place, place ≠ ["c", "x.json"] → blocked.entry? place = plain.entry? place) ∧
      (Path.ofText "/c/x.json") ∈ search.paths "x.json" "" ∧
      (∀ e ∈ Document.extensions, (∃ found, search.found plain ("x" ++ e) "" = .ok found) ∧
        ∃ found, search.found blocked ("x" ++ e) "" = .ok found) ∧
      (search.readable plain "x.yml" "").isSome = true ∧
      (search.readable blocked "x.yml" "").isSome = true ∧
      ((Resolver.mk search Overlay.nothing).resolveMap blocked "x" "").lines ≠
        ((Resolver.mk search Overlay.nothing).resolveMap plain "x" "").lines := by
  refine ⟨?_, by decide +kernel, ?_, by decide +kernel, by decide +kernel, ?_⟩
  · intro place hplace
    have hne : (place == ["c", "x.json"]) = false := beq_false_of_ne hplace
    simp only [FileTree.entry?, blocked, List.lookup_cons, hne]
    rfl
  · simp only [Document.extensions, List.forall_mem_cons]
    refine ⟨⟨⟨_, rfl⟩, _, rfl⟩, ⟨⟨_, rfl⟩, _, rfl⟩, ⟨⟨_, rfl⟩, _, rfl⟩, ?_⟩
    exact fun e he => absurd he List.not_mem_nil
  · obtain ⟨r, heap, hparse⟩ :=
      Document.silent_parseMapping content ("x" ++ ".yml") Store.empty.heap
    have hstream : search.readable plain ("x" ++ ".yml") "" =
        some (⟨some "/d/x.yml", .ok content⟩, content) := rfl
    have hstream' : search.readable blocked ("x" ++ ".yml") "" =
        some (⟨some "/d/x.yml", .ok content⟩, content) := rfl
    -- The same config is read from the same file, with one warning more.
    have htold : (search.told plain ("x" ++ ".yml") "").length = 3 := by decide +kernel
    have htold' : (search.told blocked ("x" ++ ".yml") "").length = 4 := by decide +kernel
    have hextensions : Document.extensions = [] ++ ".yml" :: [".yaml", ".json"] := rfl
    have hfound : ∀ t : FileTree, ∀ x ∈ ([] : List String), ∃ found,
        search.found t ("x" ++ x) "" = .ok found := fun _ x hx => absurd hx List.not_mem_nil
    have hmissed : ∀ t : FileTree, ∀ x ∈ ([] : List String),
        search.readable t ("x" ++ x) "" = none := fun _ x hx => absurd hx List.not_mem_nil
    have hrun : ((Resolver.mk search Overlay.nothing).resolveMap plain "x" "").run.run .empty = _ :=
      Search.run_resolveMap_of_readable hextensions (hfound plain) (hmissed plain) hstream hparse _
    have hrun' :
        ((Resolver.mk search Overlay.nothing).resolveMap blocked "x" "").run.run .empty = _ :=
      Search.run_resolveMap_of_readable hextensions (hfound blocked) (hmissed blocked) hstream'
        hparse _
    unfold Act.lines
    rw [hrun, hrun']
    intro heq
    have hlength := congrArg List.length heq
    simp only [length_log_conclude, List.length_append, List.flatMap_nil, List.length_nil, htold,
      htold'] at hlength
    omega

end InTheWay
end Stratum
