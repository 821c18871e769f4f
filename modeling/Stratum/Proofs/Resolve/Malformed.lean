import Stratum.Proofs.Engine.Acts
import Stratum.Proofs.Overlay.Merge
import Stratum.Proofs.Resolve.Extensions

/-!
# Content that cannot be used

What becomes of the content of a file: a value, or the report that it cannot be used. A scalar of
YAML that its tag does not fit and a number of JSON with too many digits are not reported so; they
fail as what they are. `Document.stray?` tells these failures from the content, and there are no
others (`Document.run_parse`), also when a config is resolved by the content
(`Search.settled_resolveMap`).
-/

namespace Stratum

namespace Document

/-- The failure that content ends with and that is not reported as content that cannot be used, if
there is one. -/
def stray? (bytes : List UInt8) (name : String) (heap : Heap) : Option Failure :=
  if endsIn ".json" name then
    match Text.Utf8.decode bytes with
    | .error _ => none
    | .ok text =>
      if text.all Text.isBlank then none
      else match Json.read text with
        | .error (.numeral fault) => some (.number fault)
        | _ => none
  else match Yaml.load bytes heap with
    | .error (.scalar fault) => some (.scalar fault)
    | _ => none

/-- A stray failure is that of a number or of a scalar. -/
theorem stray?_cases {bytes : List UInt8} {name : String} {heap : Heap} {e : Failure}
    (h : stray? bytes name heap = some e) :
    (∃ fault, e = .number fault) ∨ ∃ fault, e = .scalar fault := by
  unfold stray? at h
  split at h
  · refine .inl ?_
    split at h
    · cases h
    · split at h
      · cases h
      · split at h
        · exact ⟨_, (Option.some.inj h).symm⟩
        · cases h
  · split at h
    · exact .inr ⟨_, (Option.some.inj h).symm⟩
    · cases h

/-- An outcome is an answer, or the report that the content of the file of a name cannot be used. -/
def Reported (name : String) (r : Except Failure Slot) : Prop :=
  (∃ s, r = .ok s) ∨ ∃ fault, r = .error (.malformed ⟨fault, Text.escape name, Text.escape name⟩)

variable {bytes : List UInt8} {name : String} {st : Store} {e : Failure}

/-- What JSON comes to: its stray failure, or an answer or report. -/
theorem run_ofJson (bytes : List UInt8) (name : String) (st : Store) (hname : endsIn ".json" name) :
    match stray? bytes name st.heap with
      | some e => (ofJson bytes name).run.run st = (.error e, st)
      | none => Reported name ((ofJson bytes name).run.run st).1 := by
  unfold stray? ofJson
  rw [if_pos hname]
  rcases Text.Utf8.decode bytes with fault | text
  · exact .inr ⟨_, rfl⟩
  · dsimp only
    by_cases hblank : text.all Text.isBlank = true
    · rw [if_pos hblank, if_pos hblank]
      exact .inl ⟨_, rfl⟩
    · rw [if_neg hblank, if_neg hblank]
      rcases Json.read text with (⟨problem, offset⟩ | fault) | v
      · exact .inr ⟨_, rfl⟩
      · rfl
      · exact .inl ⟨_, rfl⟩

/-- What YAML comes to: its stray failure, or an answer or report. -/
theorem run_ofYaml (bytes : List UInt8) (name : String) (st : Store)
    (hname : ¬ endsIn ".json" name) :
    match stray? bytes name st.heap with
      | some e => (ofYaml bytes name).run.run st = (.error e, st)
      | none => Reported name ((ofYaml bytes name).run.run st).1 := by
  have hget : (get : Act Store).run.run st = (.ok st, st) := rfl
  unfold stray? ofYaml
  rw [if_neg hname, Act.run_bind, hget]
  dsimp only
  rcases Yaml.load bytes st.heap with fault | ⟨s, heap⟩
  · cases fault with
    | scalar fault => rfl
    | _ => exact .inr ⟨_, rfl⟩
  · exact .inl ⟨_, rfl⟩

/-- What a document comes to: its stray failure, or an answer or report. -/
theorem run_parse (bytes : List UInt8) (name : String) (st : Store) :
    match stray? bytes name st.heap with
      | some e => (parse bytes name).run.run st = (.error e, st)
      | none => Reported name ((parse bytes name).run.run st).1 := by
  unfold parse
  by_cases hname : endsIn ".json" name = true
  · rw [if_pos hname]
    exact run_ofJson bytes name st hname
  · rw [if_neg hname]
    exact run_ofYaml bytes name st hname

/-- An answer that is wanted to be a mapping is one, or is reported. -/
theorem reported_parseMapping (h : Reported name ((parse bytes name).run.run st).1) :
    Reported name ((parseMapping bytes name).run.run st).1 := by
  unfold parseMapping
  rw [Act.run_bind]
  rcases hparse : (parse bytes name).run.run st with ⟨r, st'⟩
  rw [hparse] at h
  obtain ⟨s, rfl⟩ | ⟨fault, rfl⟩ := h
  · dsimp only
    split
    · exact .inl ⟨_, rfl⟩
    · have hlook : (Act.look (·.entries? s)).run.run st' = (.ok (st'.heap.entries? s), st') := rfl
      rw [Act.run_bind, hlook]
      dsimp only
      split
      · exact .inl ⟨_, rfl⟩
      · exact .inr ⟨_, rfl⟩
  · exact .inr ⟨fault, rfl⟩

/-- What a document that is wanted to be a mapping comes to: its stray failure, or an answer or
report. -/
theorem run_parseMapping (bytes : List UInt8) (name : String) (st : Store) :
    match stray? bytes name st.heap with
      | some e => (parseMapping bytes name).run.run st = (.error e, st)
      | none => Reported name ((parseMapping bytes name).run.run st).1 := by
  have hparse := run_parse bytes name st
  rcases hstray : stray? bytes name st.heap with _ | e
  · rw [hstray] at hparse
    exact reported_parseMapping hparse
  · rw [hstray] at hparse
    dsimp only at hparse ⊢
    unfold parseMapping
    rw [Act.run_bind, hparse]

/-- A stray failure is what a document that is wanted to be a mapping ends with. -/
theorem run_parseMapping_of_stray (h : stray? bytes name st.heap = some e) :
    (parseMapping bytes name).run.run st = (.error e, st) := by
  have hrun := run_parseMapping bytes name st
  rwa [h] at hrun

end Document

/-! ## The file that decides -/

/-- What resolving a name comes to by the content of the file that decides: the content's stray
failure, a mapping, or the report that the content cannot be used, with the stream for its source.
What comes later is that the name of a managed value may have no text, and that a merge of mappings
that stand in themselves may never end. -/
inductive Settled (o : Overlay) (filename : String) (stream : Stream) (bytes : List UInt8)
    (st : Store) : Except Failure (Option Slot) → Store → Prop
  | stray {e : Failure} {st' : Store} (hstray : Document.stray? bytes filename st.heap = some e) :
      Settled o filename stream bytes st (.error e) st'
  | mapping {config : Slot} {st' : Store} (hstray : Document.stray? bytes filename st.heap = none)
      (hconfig : (st'.heap.entries? config).isSome = true) :
      Settled o filename stream bytes st (.ok (some config)) st'
  | malformed {fault : ContentFault} {st' : Store}
      (hstray : Document.stray? bytes filename st.heap = none) :
      Settled o filename stream bytes st
        (.error (.malformed ⟨fault, Text.escape filename, Resolver.describe stream filename⟩)) st'
  | unnamed {values : Slot} {exempt : List String} {fault : Numeral.Fault} {st' : Store}
      (hstray : Document.stray? bytes filename st.heap = none) (ho : o = .managed values exempt)
      (hnames : Overlay.appliedText (Overlay.managedEntries values
        ((Document.parseMapping bytes filename).run.run st).2.heap).keys = .error fault) :
      Settled o filename stream bytes st (.error (.number fault)) st'
  | endless {values config : Slot} {exempt : List String} {lower : Entries Slot}
      {parsed st' : Store} (hstray : Document.stray? bytes filename st.heap = none)
      (ho : o = .managed values exempt)
      (hparse : (Document.parseMapping bytes filename).run.run st = (.ok config, parsed))
      (hlower : parsed.heap.entries? config = some lower)
      (hnever : parsed.heap.mergeEntries lower
        (Overlay.managedEntries values parsed.heap) = none) :
      Settled o filename stream bytes st (.error .endless) st'

namespace Search

/-- The file that decides a name: it can be read, and the searches for the files with an earlier
extension do not fail and come to none that can. -/
def Decides (s : Search) (t : FileTree) (name hint e : String) (stream : Stream)
    (bytes : List UInt8) : Prop :=
  ∃ skipped later, Document.extensions = skipped ++ e :: later ∧
    (∀ x ∈ skipped, ∃ found, s.found t (name ++ x) hint = .ok found) ∧
    (∀ x ∈ skipped, s.readable t (name ++ x) hint = none) ∧
    s.readable t (name ++ e) hint = some (stream, bytes)

variable {s : Search} {t : FileTree} {name hint e : String} {stream : Stream}
  {bytes : List UInt8} {config : Slot}

/-- What an overlay makes of a mapping is the mapping, unless the merge would never end or the name
of a managed value has no text. -/
theorem overlaid_outcome (o : Overlay) (name : String) (st : Store)
    (hconfig : (st.heap.entries? config).isSome = true) :
    (((o.provider.overlaid name config).run.run st).1 = .ok (some config) ∧
        (((o.provider.overlaid name config).run.run st).2.heap.entries? config).isSome = true) ∨
      ∃ values exempt, o = .managed values exempt ∧
        ((∃ lower, st.heap.entries? config = some lower ∧
            st.heap.mergeEntries lower (Overlay.managedEntries values st.heap) = none ∧
            ((o.provider.overlaid name config).run.run st).1 = .error .endless) ∨
          ∃ fault,
            Overlay.appliedText (Overlay.managedEntries values st.heap).keys = .error fault ∧
            ((o.provider.overlaid name config).run.run st).1 = .error (.number fault)) := by
  have hexempt : (o.provider.isExempt name).run.run st = (.ok (o.isExempt name), st) := rfl
  unfold Provider.overlaid
  rw [Act.run_bind, hexempt]
  dsimp only
  -- An exempt config stays as it is; for the others it is the merge that fails or ends.
  by_cases hname : o.isExempt name = true
  · rw [if_pos hname]
    exact .inl ⟨rfl, hconfig⟩
  · rw [if_neg hname, Act.run_bind]
    have hmapping := Overlay.isSome_entries?_mergeMap o hconfig
    have houtcome := Overlay.mergeMap_outcome o config st
    unfold Overlay.provider
    rcases hrun : (o.mergeMap config).run.run st with ⟨r, st'⟩
    rw [hrun] at hmapping houtcome
    dsimp only at hmapping houtcome
    obtain rfl | ⟨values, exempt, rfl, ⟨lower, hlower, hnever, rfl⟩ | ⟨fault, hnames, rfl⟩⟩ :=
      houtcome
    · exact .inl ⟨rfl, hmapping⟩
    · exact .inr ⟨values, exempt, rfl, .inl ⟨lower, hlower, hnever, rfl⟩⟩
    · exact .inr ⟨values, exempt, rfl, .inr ⟨fault, hnames, rfl⟩⟩

/-- The content of the file that decides settles what a name is resolved to. -/
theorem settled_resolveMap (h : s.Decides t name hint e stream bytes) (o : Overlay) (st : Store) :
    Settled o (name ++ e) stream bytes st
      (((Resolver.mk s o).resolveMap t name hint).run.run st).1
      (((Resolver.mk s o).resolveMap t name hint).run.run st).2 := by
  obtain ⟨skipped, later, hextensions, hfound, hmissed, hreadable⟩ := h
  -- Parsing tells nothing, so what it comes to does not depend on the log of the searches.
  obtain ⟨r, heap, hparse⟩ := Document.silent_parseMapping bytes (name ++ e) st.heap
  have hrun := run_resolveMap_of_readable hextensions hfound hmissed hreadable hparse o.provider
  rw [hrun]
  generalize st.log ++ (skipped.flatMap fun x => s.missed t (name ++ x) hint) ++
    s.told t (name ++ e) hint = log
  have hcontent := Document.run_parseMapping bytes (name ++ e) st
  have hst : (Document.parseMapping bytes (name ++ e)).run.run st = (r, ⟨heap, st.log⟩) :=
    hparse st.log
  rcases hstray : Document.stray? bytes (name ++ e) st.heap with _ | failure
  · rw [hstray, hst] at hcontent
    obtain ⟨config, rfl⟩ | ⟨fault, rfl⟩ := hcontent
    · have hconfig : (heap.entries? config).isSome = true :=
        Document.isSome_entries?_of_parseMapping hst
      rw [Provider.conclude]
      obtain ⟨hr, hmapping⟩ |
          ⟨values, exempt, ho, ⟨lower, hlower, hnever, hr⟩ | ⟨fault, hnames, hr⟩⟩ :=
        overlaid_outcome o name ⟨heap, log⟩ hconfig
      · rw [hr]
        exact .mapping hstray hmapping
      · rw [hr]
        exact .endless hstray ho hst hlower hnever
      · rw [hr]
        exact .unnamed hstray ho (by rwa [hst])
    · exact .malformed hstray
  · rw [hstray, hst] at hcontent
    obtain ⟨rfl, -⟩ := Prod.mk.inj hcontent
    obtain ⟨fault, rfl⟩ | ⟨fault, rfl⟩ := Document.stray?_cases hstray
    · exact .stray hstray
    · exact .stray hstray

/-- So it does past the cache. -/
theorem settled_getMapNoCache (h : s.Decides t name hint e stream bytes) (o : Overlay)
    (now : Moment) {q q' : EngineState} {r : Except Failure (Option Slot)}
    (hrun : ((Resolver.mk s o).getMapNoCache ⟨t, now⟩ name hint).run.run q = (r, q')) :
    Settled o (name ++ e) stream bytes q.store r q'.store := by
  unfold Resolver.getMapNoCache at hrun
  rw [EngineAct.run_ofAct] at hrun
  obtain ⟨rfl, rfl⟩ := Prod.mk.inj hrun
  exact settled_resolveMap h o q.store

/-- So it does if the cache has no answer. -/
theorem settled_getMap (h : s.Decides t name hint e stream bytes) (o : Overlay) (now : Moment)
    {q fresh q' : EngineState} {flight generation : Nat} {c : Cache CacheKey Slot}
    {r : Except Failure (Option Slot)}
    (hrefresh : (EngineAct.refresh now).run.run q = (.ok (), fresh))
    (hlookup : fresh.cache.lookup (.map name hint) = (.started flight generation, c))
    (hrun : ((Resolver.mk s o).getMap ⟨t, now⟩ name hint).run.run q = (r, q')) :
    Settled o (name ++ e) stream bytes fresh.store r q'.store := by
  have hsettled := settled_resolveMap h o fresh.store
  unfold Resolver.getMap at hrun
  rw [EngineAct.run_fetch, hrefresh] at hrun
  dsimp only at hrun
  rw [hlookup] at hrun
  dsimp only at hrun
  rcases hresolve : ((Resolver.mk s o).resolveMap t name hint).run.run fresh.store with ⟨f | v, st'⟩
  · rw [hresolve] at hrun hsettled
    obtain ⟨rfl, rfl⟩ := Prod.mk.inj hrun
    exact hsettled
  · rw [hresolve] at hrun hsettled
    obtain ⟨rfl, rfl⟩ := Prod.mk.inj hrun
    exact hsettled

/-- Content is an answer or is reported as content that cannot be used, and a mapping where one is
wanted, unless it has a stray failure: a scalar of YAML that its tag does not fit or a number of
JSON that is too long. Such a failure is what parsing ends with. So it is with the config of a name
by the content of the file that decides, past the cache and, if the cache has no answer, through
it. -/
theorem content_reported_unless_stray (bytes : List UInt8) (filename : String) (st : Store) :
    (match Document.stray? bytes filename st.heap with
      | some e => (Document.parse bytes filename).run.run st = (.error e, st) ∧
          (Document.parseMapping bytes filename).run.run st = (.error e, st)
      | none => Document.Reported filename ((Document.parse bytes filename).run.run st).1 ∧
          Document.Reported filename ((Document.parseMapping bytes filename).run.run st).1) ∧
    (∀ config st', (Document.parseMapping bytes filename).run.run st = (.ok config, st') →
      (st'.heap.entries? config).isSome = true) ∧
    ∀ (s : Search) t name hint e stream, filename = name ++ e →
      s.Decides t name hint e stream bytes → ∀ (o : Overlay) now q r q',
        (((Resolver.mk s o).getMapNoCache ⟨t, now⟩ name hint).run.run q = (r, q') →
          Settled o filename stream bytes q.store r q'.store) ∧
        ∀ fresh flight generation c, (EngineAct.refresh now).run.run q = (.ok (), fresh) →
          fresh.cache.lookup (.map name hint) = (.started flight generation, c) →
          ((Resolver.mk s o).getMap ⟨t, now⟩ name hint).run.run q = (r, q') →
          Settled o filename stream bytes fresh.store r q'.store := by
  refine ⟨?_, fun config st' => Document.isSome_entries?_of_parseMapping, ?_⟩
  · have hparse := Document.run_parse bytes filename st
    have hmapping := Document.run_parseMapping bytes filename st
    rcases hstray : Document.stray? bytes filename st.heap with _ | e
    · rw [hstray] at hparse hmapping
      exact ⟨hparse, hmapping⟩
    · rw [hstray] at hparse hmapping
      exact ⟨hparse, hmapping⟩
  · rintro s t name hint e stream rfl h o now q r q'
    exact ⟨settled_getMapNoCache h o now, fun fresh flight generation c => settled_getMap h o now⟩

end Search

namespace ImpossibleDate

/-- One directory to look into. -/
def search : Search := ⟨["/d"], none⟩

/-- A date that no calendar has. -/
def bytes : List UInt8 := Text.Utf8.encode "expires: 2025-02-30\n".toList

/-- A file with the date. -/
def files : FileTree := ⟨[(["d"], .folder), (["d", "x.yml"], .file bytes)], []⟩

/-- Whether a failure is that of a day that its month does not have. -/
def isDayFault : Option Failure → Bool
  | some (.scalar (.moment (.date .day))) => true
  | _ => false

/-- It is the only failure that is told so. -/
theorem eq_of_isDayFault {e : Option Failure} (h : isDayFault e = true) :
    e = some (.scalar (.moment (.date .day))) := by
  unfold isDayFault at h
  split at h
  · rfl
  · cases h

/-- The content has a stray failure. -/
theorem stray?_bytes :
    Document.stray? bytes "x.yml" .empty = some (.scalar (.moment (.date .day))) :=
  eq_of_isDayFault (by decide +kernel)

/-- A date that no calendar has is not reported as content that cannot be used. -/
theorem date_escapes : (Document.parseMapping bytes "x.yml").run.run .empty =
      (.error (.scalar (.moment (.date .day))), .empty) ∧
    ¬ Document.Reported "x.yml" ((Document.parseMapping bytes "x.yml").run.run .empty).1 := by
  have hstray : Document.stray? bytes "x.yml" Store.empty.heap = _ := stray?_bytes
  have hrun := Document.run_parseMapping_of_stray hstray
  refine ⟨hrun, ?_⟩
  rw [hrun]
  rintro (⟨s, ⟨⟩⟩ | ⟨fault, ⟨⟩⟩)

/-- The file decides, as there is no extension before its own. -/
theorem decides_file : search.Decides files "x" "" ".yml" ⟨some "/d/x.yml", .ok bytes⟩ bytes :=
  ⟨[], [".yaml", ".json"], rfl, fun _ hx => absurd hx List.not_mem_nil,
    fun _ hx => absurd hx List.not_mem_nil, rfl⟩

/-- A config with such a date is neither given nor reported. -/
theorem config_escapes :
    ((((Resolver.mk search Overlay.nothing).getMapNoCache ⟨files, .inMay 0 12 0⟩ "x" "").run.run
      ⟨.empty, .empty⟩).1 : Except Failure (Option Slot)) =
        .error (.scalar (.moment (.date .day))) := by
  have hsettled := ((Search.content_reported_unless_stray bytes "x.yml" .empty).2.2 search files
    "x" "" ".yml" _ rfl decides_file .nothing (.inMay 0 12 0) ⟨.empty, .empty⟩ _ _).1
    Prod.mk.eta.symm
  generalize (((Resolver.mk search Overlay.nothing).getMapNoCache ⟨files, .inMay 0 12 0⟩ "x" ""
    ).run.run ⟨.empty, .empty⟩).1 = r at hsettled ⊢
  have hstray := stray?_bytes
  cases hsettled with
  | stray h => exact congrArg Except.error (Option.some.inj (h.symm.trans hstray))
  | mapping h => cases h.symm.trans hstray
  | malformed h => cases h.symm.trans hstray
  | unnamed h => cases h.symm.trans hstray
  | endless h => cases h.symm.trans hstray

end ImpossibleDate
end Stratum
