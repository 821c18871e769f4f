import Stratum.Proofs.Overlay.Merge
import Stratum.Proofs.Resolve.Reports
import Stratum.Proofs.Search.Telling
import Stratum.Resolve

/-!
# What is told can be printed

Whatever a name is resolved to, the logger is told printable lines only, and content that cannot be
used is reported in printable words with a printable source (`Resolver.prints_resolveMap`,
`Resolver.prints_resolveObject`, `Resolver.prints_resolveString`). So it is with each merge of
managed values.
-/

namespace Stratum

open Text (Printable printable_append printable_escape printable_escapePoints printable_of_all
  printable_toString)

/-! ## Searching -/

namespace Search

open Act (Prints prints_pure prints_throw prints_tell)

variable {host : HostError → Prop} (t : FileTree) (bundle : Option Bundle)

/-- Opening a file prints. -/
theorem prints_openFile (p : Path) : (openFile t p).Prints host := by
  unfold openFile
  split
  · exact prints_pure _
  · exact prints_pure _
  · split
    · exact prints_throw trivial
    · refine (prints_tell _ _ ?_).bind fun _ => prints_pure _
      simp only [printable_append, printable_escape, and_true]
      exact ⟨printable_of_all (by decide), printable_of_all (by decide)⟩

/-- A look whether a file is there prints. -/
theorem prints_isFile (p : Path) : (isFile t p).Prints host := by
  unfold isFile
  split
  · exact prints_pure _
  · split
    · exact prints_pure _
    · split
      · exact prints_pure _
      · exact prints_throw trivial

/-- A warning about a file of the bundle prints. -/
theorem prints_skipBundled (relative : String) (r : Refusal) :
    (skipBundled relative r).Prints host := by
  refine (prints_tell _ _ ?_).bind fun _ => prints_pure _
  simp only [printable_append, printable_escape, and_true]
  exact ⟨printable_of_all (by decide), printable_of_all (by decide)⟩

/-- Opening a file of the bundle prints. -/
theorem prints_openBundled (relative : String) : (openBundled t bundle relative).Prints host := by
  unfold openBundled
  split
  · exact prints_pure _
  · refine (prints_isFile t _).bind fun found => ?_
    split
    · split
      · exact prints_pure _
      · split
        · exact prints_throw trivial
        · exact prints_skipBundled _ _
    · exact prints_pure _
  · split
    · exact prints_pure _
    · split
      · exact prints_pure _
      · exact prints_skipBundled _ _

/-- A report of printable words that end in escaped text prints. -/
theorem prints_report {words : String} (h : Printable words) (s : String) :
    (report (words ++ Text.escape s)).Prints host :=
  prints_tell _ _ (printable_append.mpr ⟨h, printable_escape s⟩)

/-- A look into a directory prints. -/
theorem prints_inDirectory (name : String) (dir : Path) : (inDirectory t name dir).Prints host := by
  have hplace : Printable
      (" externalized folder for " ++ Text.escape name ++ " in " ++ Text.escape dir.text) := by
    simp only [printable_append, printable_escape, and_true]
    exact ⟨printable_of_all (by decide), printable_of_all (by decide)⟩
  unfold inDirectory
  refine (prints_openFile t _).bind fun found => ?_
  dsimp only
  split
  · refine (prints_tell _ _ ?_).bind fun _ => prints_pure _
    exact printable_append.mpr ⟨printable_of_all (by decide), hplace⟩
  · refine (prints_tell _ _ ?_).bind fun _ => prints_pure _
    exact printable_append.mpr ⟨printable_of_all (by decide), hplace⟩

/-- A look into the bundle in place of a directory prints. -/
theorem prints_inPlaceOfDirectory (name hint : String) :
    (inPlaceOfDirectory t bundle name hint).Prints host := by
  unfold inPlaceOfDirectory
  split
  · exact prints_pure _
  · refine (prints_openBundled t bundle _).bind fun found => ?_
    split
    · exact (prints_report (printable_of_all (by decide)) _).bind fun _ => prints_pure _
    · exact (prints_report (printable_of_all (by decide)) _).bind fun _ => prints_pure _

/-- A look into the bundle prints. -/
theorem prints_inBundle (name : String) : (inBundle t bundle name).Prints host := by
  unfold inBundle
  refine (prints_report (printable_of_all (by decide)) name).bind fun _ => ?_
  refine (prints_openBundled t bundle _).bind fun found => ?_
  split
  · exact (prints_report (printable_of_all (by decide)) name).bind fun _ => prints_pure _
  · exact prints_pure _

/-- A look into the folder for defaults prints. -/
theorem prints_inDefaults (name : String) : (inDefaults t bundle name).Prints host := by
  unfold inDefaults
  refine (prints_openBundled t bundle _).bind fun found => ?_
  split
  · exact (prints_report (printable_of_all (by decide)) name).bind fun _ => prints_pure _
  · exact prints_pure _

/-- The first stream that is found is found by acts that print. -/
theorem prints_firstOf {tiers : List (Act (Option Stream))}
    (h : ∀ tier ∈ tiers, tier.Prints host) : (firstOf tiers).Prints host := by
  induction tiers with
  | nil => exact prints_pure _
  | cons tier rest ih =>
    obtain ⟨htier, hrest⟩ := List.forall_mem_cons.mp h
    unfold firstOf
    refine htier.bind fun found => ?_
    cases found with
    | some s => exact prints_pure _
    | none => exact ih hrest

/-- What is said when no tier has a file is printable. -/
theorem printable_missText (name : String) : Printable (missText name) := by
  have hnext : ∀ extension, Printable extension → Printable ("Unable to load config " ++
      Text.escape name ++ ". Looking for the same file name with extension " ++ extension ++
      "...") := by
    intro extension h
    simp only [printable_append, printable_escape, h, and_true]
    exact ⟨⟨printable_of_all (by decide), printable_of_all (by decide)⟩,
      printable_of_all (by decide)⟩
  unfold missText
  dsimp only
  split
  · exact hnext "yaml" (printable_of_all (by decide))
  · split
    · exact hnext "json" (printable_of_all (by decide))
    · simp only [printable_append, printable_escape, and_true]
      exact ⟨⟨⟨printable_of_all (by decide), printable_of_all (by decide)⟩,
        printable_of_all (by decide)⟩, printable_of_all (by decide)⟩

/-- A search for a file prints. -/
theorem prints_locate (s : Search) (name hint : String) : (s.locate t name hint).Prints host := by
  unfold locate
  refine (prints_firstOf ?_).bind fun found => ?_
  · intro tier htier
    rcases List.mem_append.mp htier with htier | htier
    · unfold external at htier
      split at htier
      · rw [List.mem_singleton.mp htier]
        exact prints_inDirectory t name _
      · obtain ⟨dir, -, rfl⟩ := List.mem_map.mp htier
        split
        · exact prints_inPlaceOfDirectory t s.bundle name hint
        · exact prints_inDirectory t name _
    · simp only [List.mem_cons, List.not_mem_nil, or_false] at htier
      rcases htier with rfl | rfl
      · exact prints_inBundle t s.bundle name
      · exact prints_inDefaults t s.bundle name
  · cases found with
    | some stream => exact prints_pure _
    | none => exact (prints_tell _ _ (printable_missText name)).bind fun _ => prints_pure _

end Search

/-! ## Managed values -/

namespace Shape

/-- Building a shape prints. -/
theorem prints_build (shape : Shape) (data : Slot) :
    (shape.build data).Prints (· ∈ shape.rejection?) :=
  (shape.silent_build data).prints ((shape.failsAs_build data).mono fun _ => (·.printable))

end Shape

namespace Overlay

open Act (Prints prints_pure prints_throw prints_make)

variable {host : HostError → Prop}

/-- What is said of the names of managed values is printable, whatever they are. -/
theorem printable_of_appliedText {keys : List Atom} {text : String}
    (h : appliedText keys = .ok text) : Printable text := by
  unfold appliedText at h
  obtain ⟨names, -, h⟩ := bind_eq_ok h
  obtain rfl := Except.ok.inj h
  simp only [printable_append, printable_toString, printable_escapePoints, and_true]
  exact ⟨printable_of_all (by decide), printable_of_all (by decide)⟩

/-- Laying managed values over a config prints. -/
theorem prints_mergeMap (o : Overlay) (config : Slot) : (o.mergeMap config).Prints host := by
  cases o with
  | nothing => exact prints_pure ()
  | managed values exempt =>
    intro st
    rcases hentries : st.heap.entries? config with _ | lower
    · rw [run_mergeMap_other values exempt hentries]
      exact prints_pure () st
    · cases config with
      | atom a => cases hentries
      | ref addr =>
        rw [run_mergeMap_mapping values exempt hentries]
        dsimp only
        rcases st.heap.mergeEntries lower (managedEntries values st.heap) with _ | ⟨merged, heap⟩
        · refine ⟨.refl st.log, ?_⟩
          rintro e ⟨⟩
          trivial
        · dsimp only
          rcases happlied : appliedText (managedEntries values st.heap).keys with fault | text
          · refine ⟨.refl st.log, ?_⟩
            rintro e ⟨⟩
            trivial
          · refine ⟨.line st.log (printable_of_appliedText happlied), ?_⟩
            rintro e ⟨⟩

/-- Making a provider prints. -/
theorem prints_ofValues (values : Slot) (exempt : List String) :
    (ofValues values exempt).Prints host :=
  (prints_make (·.copy values)).bind fun copy => prints_pure (managed copy exempt)

/-- A list of names that is none is a misuse. -/
theorem printable_of_namesOf {items : List Value} {e : Failure} (h : namesOf items = .error e) :
    e.Printable host := by
  induction items with
  | nil => cases h
  | cons v rest ih =>
    unfold namesOf at h
    split at h
    · cases h
    · rename_i heq
      obtain ⟨-, rfl⟩ := List.cons.inj heq
      rcases hrest : namesOf rest with e' | names
      · rw [hrest] at h
        obtain rfl := Except.error.inj h
        exact ih hrest
      · rw [hrest] at h
        cases h
    · rename_i heq
      obtain ⟨-, rfl⟩ := List.cons.inj heq
      exact ih h
    · obtain rfl := Except.error.inj h
      trivial

/-- Making a provider by a config prints. -/
theorem prints_ofConfig (values : Slot) (config : Value) :
    (ofConfig values config).Prints host := by
  unfold ofConfig
  refine Prints.bind ?_ fun exempt => prints_ofValues values exempt
  rcases hexclusions : exclusions config with e | exempt
  · refine prints_throw ?_
    unfold exclusions at hexclusions
    split at hexclusions
    · cases hexclusions
    · split at hexclusions
      · obtain rfl := Except.error.inj hexclusions
        trivial
      · split at hexclusions
        · cases hexclusions
        · split at hexclusions
          · cases hexclusions
          · split at hexclusions
            · exact printable_of_namesOf hexclusions
            · obtain rfl := Except.error.inj hexclusions
              trivial
  · exact prints_pure exempt

/-- Laying managed values over a config and building a shape from it prints. -/
theorem prints_mergeObject (o : Overlay) (config : Slot) (shape : Shape) :
    (o.mergeObject config shape).Prints (· ∈ shape.rejection?) :=
  (o.prints_mergeMap config).bind fun _ => shape.prints_build config

end Overlay

/-! ## Resolving -/

namespace Resolver

open Act (Prints prints_pure prints_throw prints_tell)

variable {host : HostError → Prop} (r : Resolver) (t : FileTree) (name hint : String)

/-- A stream that cannot be read is reported in printable words. -/
theorem prints_reportUnreadable (s : Stream) (filename : String) (refusal : Refusal) :
    (reportUnreadable s filename refusal).Prints host := by
  refine prints_tell _ _ ?_
  have hsource : Printable (describe s filename) := printable_escape _
  simp only [printable_append, printable_escape, hsource, and_true]
  exact ⟨printable_of_all (by decide), printable_of_all (by decide)⟩

/-- Making a mapping of a stream's content prints, with the stream as the source. -/
theorem prints_mappingOf (s : Stream) (filename : String) (bytes : List UInt8) :
    (mappingOf s filename bytes).Prints host := by
  have hsource : Printable (describe s filename) := printable_escape _
  unfold mappingOf
  refine (Document.prints_parseMapping bytes filename).tryCatch fun e he => ?_
  split
  · obtain ⟨hmessage, -⟩ := he
    refine (prints_tell _ _ ?_).bind fun _ => prints_throw ⟨hmessage, hsource⟩
    simp only [printable_append, hmessage, hsource, true_and, and_true]
    exact ⟨printable_of_all (by decide), printable_of_all (by decide)⟩
  · exact prints_throw he

/-- Looking for the mapping in a file prints. -/
theorem prints_load (filename : String) : (r.load t filename hint).Prints host := by
  unfold load
  refine (Search.prints_locate t r.search filename hint).bind fun found => ?_
  split
  · exact prints_pure _
  · split
    · exact (prints_mappingOf _ filename _).bind fun config => prints_pure _
    · exact (prints_reportUnreadable _ filename _).bind fun _ => prints_pure _

/-- Looking for the mapping in the first file of a name prints. -/
theorem prints_loadFirst (extensions : List String) :
    (r.loadFirst t name hint extensions).Prints host := by
  induction extensions with
  | nil => exact prints_pure _
  | cons e rest ih =>
    unfold loadFirst
    refine (r.prints_load t hint (name ++ e)).bind fun found => ?_
    cases found with
    | some config => exact prints_pure _
    | none => exact ih

/-- A config that gets no managed values is reported in printable words. -/
theorem prints_reportExempt : (reportExempt name).Prints host :=
  prints_tell _ _ (printable_append.mpr ⟨printable_of_all (by decide), printable_escape name⟩)

/-- Resolving a name to a mapping prints. -/
theorem prints_resolveMap (s : Search) (o : Overlay) :
    ((Resolver.mk s o).resolveMap t name hint).Prints host := by
  unfold resolveMap
  refine ((Resolver.mk s o).prints_loadFirst t name hint Document.extensions).bind fun found => ?_
  cases found with
  | none => exact prints_pure _
  | some config =>
    dsimp only [Overlay.provider]
    rw [pure_bind]
    split
    · exact (prints_reportExempt name).bind fun _ => prints_pure _
    · exact (o.prints_mergeMap config).bind fun _ => prints_pure _

/-- Resolving a name to an object prints. -/
theorem prints_resolveObject (s : Search) (o : Overlay) (shape : Shape) :
    ((Resolver.mk s o).resolveObject t name shape hint).Prints (· ∈ shape.rejection?) := by
  unfold resolveObject
  refine ((Resolver.mk s o).prints_loadFirst t name hint Document.extensions).bind fun found => ?_
  cases found with
  | none => exact prints_pure _
  | some config =>
    dsimp only [Overlay.provider]
    rw [pure_bind]
    split
    · exact (prints_reportExempt name).bind fun _ =>
        (shape.prints_build config).bind fun s => prints_pure _
    · exact (o.prints_mergeObject config shape).bind fun s => prints_pure _

/-- Resolving a file to its text prints. -/
theorem prints_resolveString (filename : String) :
    (r.resolveString t filename hint).Prints host := by
  unfold resolveString
  refine (Search.prints_locate t r.search filename hint).bind fun found => ?_
  split
  · exact prints_pure _
  · rename_i s
    split
    · exact (prints_reportUnreadable s filename _).bind fun _ => prints_pure _
    · split
      · exact prints_pure _
      · rename_i fault _
        have hsource : Printable (describe s filename) := printable_escape _
        have hmessage : Printable ((ContentFault.notText fault).message (describe s filename)) :=
          ContentFault.printable_message hsource fun kind hkind => by cases hkind
        exact (prints_tell _ _ hmessage).bind fun _ => prints_throw ⟨hmessage, hsource⟩

end Resolver
end Stratum
