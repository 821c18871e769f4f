import Mathlib.Data.List.Forall2
import Stratum.Proofs.Search.FirstHit

/-!
# Warnings of a search

What a search warns of. A path that something stands in the way of is warned of once, unless it is
in the folder of a bundle: there it is asked first whether it is a file, and everything else is
passed over without a word. A file or a resource of a bundle that refuses to be opened is warned of
once too. A search that does not fail warns of the places up to its first hit in this way, one after
the other, and of nothing else (`Search.warnings_of_visited`).
-/

namespace Stratum

/-- The warnings among lines. -/
def warnings (lines : List Line) : List Line := lines.filter (·.level = .warning)

/-- Warnings of lines one behind the other. -/
theorem warnings_append (lines lines' : List Line) :
    warnings (lines ++ lines') = warnings lines ++ warnings lines' := List.filter_append ..

section Own

variable {α : Type} {act : Act α} {r : Except Failure α} {told : List Line}

/-- What an act comes to is its own result. -/
theorem Act.Tells.result_eq (h : act.Tells r told) : act.result = r := by
  rw [result, h]

/-- The lines that an act tells are its own. -/
theorem Act.Tells.lines_eq (h : act.Tells r told) : act.lines = told := by
  rw [lines, h]
  exact List.nil_append told

end Own

/-- Of two acts that do nothing but tell lines, the second one's lines come behind those of the
first unless the first fails. -/
theorem Act.OnlyTells.lines_bind {α β : Type} {x : Act α} {f : α → Act β} (hx : x.OnlyTells)
    (hf : ∀ a, (f a).OnlyTells) : (x >>= f).lines = x.lines ++ match x.result with
      | .ok a => (f a).lines
      | .error _ => [] := by
  have hrun := hx.tells
  rcases hresult : x.result with e | a
  · rw [hresult] at hrun
    exact hrun.bind_error.lines_eq.trans (List.append_nil _).symm
  · rw [hresult] at hrun
    exact (hrun.bind (hf a).tells).lines_eq

/-! ## Places that are looked at -/

namespace Candidate

variable {t : FileTree} {bundle : Option Bundle} {cs : List Candidate} {found : Option Stream}

/-- The places that are looked at: those up to the first one that opens as a file. -/
def visited (t : FileTree) (bundle : Option Bundle) : List Candidate → List Candidate
  | [] => []
  | c :: rest => c :: if (c.stream? t bundle).isSome then [] else visited t bundle rest

/-- Of the places of two lists, those of the second are looked at if the first finds nothing. -/
theorem visited_append (h : firstLook t bundle cs = .ok found) (ds : List Candidate) :
    visited t bundle (cs ++ ds) =
      visited t bundle cs ++ if found.isSome then [] else visited t bundle ds := by
  induction cs with
  | nil =>
    obtain rfl := Except.ok.inj h
    rfl
  | cons c cs ih =>
    rw [firstLook] at h
    rw [List.cons_append, visited, visited]
    rcases hlook : c.look t bundle with e | _ | stream
    · rw [hlook] at h
      cases h
    · rw [hlook] at h
      rw [stream?_of_look hlook, ih h]
      rfl
    · rw [hlook] at h
      obtain rfl := Except.ok.inj h
      rw [stream?_of_look hlook]
      rfl

/-- The warning that a look at a place comes with, if it comes with one. A path is warned of if
something stands in the way of opening it, and not if it is absent. In the folder of a bundle only a
file that refuses to be opened is warned of, and nothing else that stands in the way. A resource is
warned of if it is there and refuses to be opened. -/
inductive Says (t : FileTree) (bundle : Option Bundle) : Candidate → Option Line → Prop
  | refused {p : Path} {o : Obstacle} {r : Refusal} (hopen : t.open? p = .error o)
      (hthere : o ≠ .absent) (hrefusal : FileTree.refusal? p o = some r) :
      Says t bundle (.file p) (some ⟨.warning, Search.topic,
        "Unable to open " ++ Text.escape p.text ++ ": " ++ Text.escape r.reason⟩)
  | absent {p : Path} (hopen : t.open? p = .error .absent) : Says t bundle (.file p) none
  | opened {p : Path} {bytes : List UInt8} (hopen : t.open? p = .ok bytes) :
      Says t bundle (.file p) none
  | bundledRefused {base : Path} {relative : String} {bytes : List UInt8} {e : SystemError}
      {r : Refusal} (hbundle : bundle = some (.folder base))
      (hfile : t.find (Bundle.pathOf base relative) = .ok (.file bytes (some e)))
      (hrefusal : FileTree.refusal? (Bundle.pathOf base relative) (.refused e) = some r) :
      Says t bundle (.bundled (Bundle.pathOf base relative)) (some ⟨.warning, Search.topic,
        "Unable to open bundled " ++ Text.escape relative ++ ": " ++ Text.escape r.reason⟩)
  | bundled {p : Path} (hpassed : ∀ bytes e, t.find p ≠ .ok (.file bytes (some e))) :
      Says t bundle (.bundled p) none
  | resourceRefused {held : List (List String × Resource)} {relative : String} {res : Resource}
      {r : Refusal} (hbundle : bundle = some (.resources held))
      (hthere : held.lookup (Bundle.resourceNames relative) = some res)
      (hrefusal : res.openRefusal = some r) :
      Says t bundle (.resource (Bundle.resourceNames relative)) (some ⟨.warning, Search.topic,
        "Unable to open bundled " ++ Text.escape relative ++ ": " ++ Text.escape r.reason⟩)
  | resourceOpened {held : List (List String × Resource)} {names : List String}
      (hbundle : bundle = some (.resources held))
      (hopen : ∀ res, held.lookup names = some res → res.openRefusal = none) :
      Says t bundle (.resource names) none

end Candidate

namespace Search

open Act (OnlyTells)

/-- Unless it fails, a search warns of the places that it looks at as each of them says. -/
def WarnsOf (t : FileTree) (bundle : Option Bundle) (act : Act (Option Stream))
    (places : List Candidate) : Prop :=
  ∀ found, act.result = .ok found → ∃ told : List (Option Line),
    warnings act.lines = told.filterMap id ∧
      List.Forall₂ (Candidate.Says t bundle) (Candidate.visited t bundle places) told

section Places

variable {t : FileTree} {bundle : Option Bundle} {x : Act (Option Stream)}
  {report : Option Stream → Act (Option Stream)} {places : List Candidate} {c : Candidate}

/-- A look at a single place warns of it as it says. -/
theorem warnsOf_singleton (h : ∀ found, x.result = .ok found →
    ∃ told : Option Line, warnings x.lines = told.toList ∧ c.Says t bundle told) :
    WarnsOf t bundle x [c] := by
  intro found hfound
  obtain ⟨told, hlines, hsaid⟩ := h found hfound
  refine ⟨[told], hlines.trans (by cases told <;> rfl), ?_⟩
  rw [Candidate.visited, Candidate.visited, ite_self]
  exact .cons hsaid .nil

/-- What only reports an answer and gives it on warns of the same, if a report is no warning. -/
theorem WarnsOf.bind_report (h : WarnsOf t bundle x places) (hx : x.OnlyTells)
    (hreport : ∀ found, ∃ lines, (report found).Tells (.ok found) lines ∧ warnings lines = []) :
    WarnsOf t bundle (x >>= report) places := by
  have hanswer : ∀ found, ∃ lines, (report found).Tells (.ok found) lines := fun found =>
    (hreport found).imp fun _ h => h.1
  intro found hfound
  rw [hx.result_bind_report hanswer] at hfound
  obtain ⟨told, hlines, hsaid⟩ := h found hfound
  refine ⟨told, ?_, hsaid⟩
  obtain ⟨lines, htells, hnone⟩ := hreport found
  rw [hx.lines_bind fun a => ⟨_, hanswer a⟩, hfound, warnings_append, hlines]
  dsimp only
  rw [htells.lines_eq, hnone, List.append_nil]

/-- A report before a look is no warning. -/
theorem WarnsOf.of_report (h : WarnsOf t bundle x places) (hx : x.OnlyTells) (message : String) :
    WarnsOf t bundle (Search.report message >>= fun _ => x) places := by
  have hreport : (Search.report message).Tells (.ok ()) [⟨.verbose, topic, message⟩] :=
    Act.tells_tell _ _ _
  intro found hfound
  rw [OnlyTells.result_bind ⟨_, _, hreport⟩ fun _ => hx, hreport.result_eq] at hfound
  obtain ⟨told, hlines, hsaid⟩ := h found hfound
  refine ⟨told, ?_, hsaid⟩
  rw [OnlyTells.lines_bind ⟨_, _, hreport⟩ fun _ => hx, warnings_append, hreport.lines_eq,
    hreport.result_eq]
  exact hlines

/-- A look and what follows it if it finds nothing warn of the places of the one and then, if it
finds nothing, of those of the other. -/
theorem WarnsOf.bind {next : Option Stream → Act (Option Stream)} {others : List Candidate}
    (h : WarnsOf t bundle x places) (hx : x.OnlyTells)
    (hresult : x.result = Candidate.firstLook t bundle places)
    (hfound : ∀ s, next (some s) = pure (some s)) (honly : (next none).OnlyTells)
    (hnext : WarnsOf t bundle (next none) others) :
    WarnsOf t bundle (x >>= next) (places ++ others) := by
  have hthen : ∀ found, (next found).OnlyTells := by
    rintro (_ | s)
    · exact honly
    · exact hfound s ▸ Act.onlyTells_pure _
  intro found hlast
  rw [hx.result_bind hthen] at hlast
  rw [hx.lines_bind hthen, warnings_append]
  -- Where the first part has found its stream, the rest says nothing and none of its places is gone
  -- to.
  rcases hfirst : x.result with e | _ | s
  · rw [hfirst] at hlast
    cases hlast
  · rw [hfirst] at hlast
    obtain ⟨told, hlines, hsaid⟩ := h none hfirst
    obtain ⟨told', hlines', hsaid'⟩ := hnext found hlast
    refine ⟨told ++ told', ?_, ?_⟩
    · rw [List.filterMap_append, hlines, ← hlines']
    · rw [Candidate.visited_append (hresult.symm.trans hfirst)]
      exact List.rel_append hsaid hsaid'
  · obtain ⟨told, hlines, hsaid⟩ := h (some s) hfirst
    have hquiet : (next (some s)).lines = [] := by
      rw [hfound]
      exact (Act.tells_pure _).lines_eq
    refine ⟨told, ?_, ?_⟩
    · dsimp only
      rw [hquiet, hlines]
      exact List.append_nil _
    · rw [Candidate.visited_append (hresult.symm.trans hfirst)]
      exact (List.append_nil (Candidate.visited t bundle places)).symm ▸ hsaid

/-- A search and those behind it warn of the places of the one and then of those of the others. -/
theorem warnsOf_firstOf_cons {rest : List (Act (Option Stream))} {others : List Candidate}
    (honly : ∀ tier ∈ x :: rest, tier.OnlyTells)
    (hresult : x.result = Candidate.firstLook t bundle places)
    (h : WarnsOf t bundle x places) (hrest : WarnsOf t bundle (firstOf rest) others) :
    WarnsOf t bundle (firstOf (x :: rest)) (places ++ others) :=
  have ⟨hx, hothers⟩ := List.forall_mem_cons.mp honly
  h.bind hx hresult (fun _ => rfl) (onlyTells_firstOf hothers) hrest

end Places

variable (t : FileTree) (bundle : Option Bundle)

/-- Opening a path that something stands in the way of is one warning and gives nothing. -/
theorem tells_openFile_of_refused {p : Path} {o : Obstacle} {r : Refusal}
    (hopen : t.open? p = .error o) (hthere : o ≠ .absent)
    (hrefusal : FileTree.refusal? p o = some r) :
    (openFile t p).Tells (.ok none) [⟨.warning, topic,
      "Unable to open " ++ Text.escape p.text ++ ": " ++ Text.escape r.reason⟩] := by
  unfold openFile
  rw [hopen]
  cases o with
  | absent => exact absurd rfl hthere
  | nul => cases hrefusal
  | notFolder | folder | tooLong | refused e =>
    cases hrefusal
    exact (Act.tells_tell _ _ _).bind (Act.tells_pure _)

/-- Opening a path warns of it. -/
theorem warnsOf_openFile (p : Path) : WarnsOf t bundle (openFile t p) [.file p] := by
  refine warnsOf_singleton fun found h => ?_
  rcases hopen : t.open? p with o | bytes
  · by_cases habsent : o = .absent
    · subst habsent
      exact ⟨none, by rw [openFile, hopen]; rfl, .absent hopen⟩
    · rcases hrefusal : FileTree.refusal? p o with _ | r
      · -- Only a path that no system call takes is no refusal, and then opening it fails.
        rw [openFile, hopen] at h
        cases o <;> cases hrefusal
        cases h
      · have htells := tells_openFile_of_refused t hopen habsent hrefusal
        exact ⟨some _, congrArg warnings htells.lines_eq, .refused hopen habsent hrefusal⟩
  · exact ⟨none, by rw [openFile, hopen]; rfl, .opened hopen⟩

/-- Opening a file of a bundle warns of its place. -/
theorem warnsOf_openBundled (relative : String) : WarnsOf t bundle (openBundled t bundle relative)
    (bundle.map (Bundle.placeOf relative)).toList := by
  rcases bundle with _ | base | held
  · exact fun _ _ => ⟨[], rfl, .nil⟩
  · refine warnsOf_singleton fun found h => ?_
    simp only [openBundled, isFile_eq]
    rcases hfailure : (Candidate.bundled (Bundle.pathOf base relative)).failure? t with _ | f
    · simp only [FileTree.open?]
      rcases hfind : t.find (Bundle.pathOf base relative) with
        o | ⟨_, _ | _⟩ | ⟨bytes, _ | e⟩ | ⟨bytes, _ | _⟩
      case ok.file.some => exact ⟨some _, rfl, .bundledRefused rfl hfind rfl⟩
      all_goals exact ⟨none, rfl, .bundled (by simp [hfind])⟩
    · -- What fails is warned of no more than what is no file.
      refine ⟨none, rfl, .bundled fun bytes e hfind => ?_⟩
      simp [Candidate.failure?, hfind] at hfailure
  · refine warnsOf_singleton fun found h => ?_
    simp only [openBundled]
    rcases hlookup : held.lookup ((Bundle.names relative).filter (· != "")) with _ | res
    · refine ⟨none, rfl, .resourceOpened rfl fun res hres => ?_⟩
      cases hlookup.symm.trans hres
    · dsimp only
      rcases hrefusal : res.openRefusal with _ | r
      · refine ⟨none, rfl, .resourceOpened rfl fun res' hres => ?_⟩
        obtain rfl := Option.some.inj (hlookup.symm.trans hres)
        exact hrefusal
      · exact ⟨some _, rfl, .resourceRefused rfl hlookup hrefusal⟩

/-- A look into a directory warns of the file in it. -/
theorem warnsOf_inDirectory (name : String) (dir : Path) :
    WarnsOf t bundle (inDirectory t name dir) [.file (dir.join (.ofText name))] := by
  unfold inDirectory
  refine (warnsOf_openFile t bundle _).bind_report (onlyTells_openFile t _) ?_
  rintro (_ | found) <;> exact ⟨_, (Act.tells_tell _ _ _).bind (Act.tells_pure _), rfl⟩

/-- A look into the bundle in place of a directory warns of the place that the hint and the name
lead to, if there is a hint. -/
theorem warnsOf_inPlaceOfDirectory (name hint : String) :
    WarnsOf t bundle (inPlaceOfDirectory t bundle name hint)
      (if hint.isEmpty then [] else (bundle.map (Bundle.under [hint, name])).toList) := by
  unfold inPlaceOfDirectory
  by_cases hnone : hint.isEmpty = true
  · rw [if_pos hnone, if_pos hnone]
    exact fun _ _ => ⟨[], rfl, .nil⟩
  · rw [if_neg hnone, if_neg hnone, ← places_hint]
    refine (warnsOf_openBundled t bundle _).bind_report (onlyTells_openBundled t bundle _) ?_
    rintro (_ | found) <;> exact ⟨_, (Act.tells_tell _ _ _).bind (Act.tells_pure _), rfl⟩

/-- A look into the bundle warns of the place of the name. -/
theorem warnsOf_inBundle (name : String) : WarnsOf t bundle (inBundle t bundle name)
    (bundle.map (Bundle.under [name])).toList := by
  have hreport : ∀ found : Option Stream, ∃ lines, Act.Tells (do
      if found.isSome then report ("Config loaded from bundle for " ++ Text.escape name)
      return found) (.ok found) lines ∧ warnings lines = [] := by
    rintro (_ | found)
    · exact ⟨_, Act.tells_pure _, rfl⟩
    · exact ⟨_, (Act.tells_tell _ _ _).bind (Act.tells_pure _), rfl⟩
  rw [← places_name]
  refine WarnsOf.of_report ?_ ?_ _
  · exact (warnsOf_openBundled t bundle name).bind_report (onlyTells_openBundled t bundle _) hreport
  · exact (onlyTells_openBundled t bundle name).bind fun found =>
      ⟨_, _, (hreport found).choose_spec.1⟩

/-- A look into the folder for defaults warns of the place of the name in it. -/
theorem warnsOf_inDefaults (name : String) : WarnsOf t bundle (inDefaults t bundle name)
    (bundle.map (Bundle.under [defaultFolder, name])).toList := by
  unfold inDefaults
  rw [← places_default]
  refine (warnsOf_openBundled t bundle _).bind_report (onlyTells_openBundled t bundle _) ?_
  rintro (_ | found)
  · exact ⟨_, Act.tells_pure _, rfl⟩
  · exact ⟨_, (Act.tells_tell _ _ _).bind (Act.tells_pure _), rfl⟩

variable (s : Search) (name hint : String)

/-- The searches in the directories warn of their places, in order. -/
theorem warnsOf_firstOf_dirs (hhint : isAbsoluteHint hint = false)
    {rest : List (Act (Option Stream))} {others : List Candidate}
    (honly : ∀ tier ∈ s.external t name hint ++ rest, tier.OnlyTells)
    (hrest : WarnsOf t s.bundle (firstOf rest) others) :
    WarnsOf t s.bundle (firstOf (s.external t name hint ++ rest))
      ((s.dirs.flatMap fun dir =>
        if dir.isEmpty then
          if hint.isEmpty then [] else (s.bundle.map (Bundle.under [hint, name])).toList
        else [.file (((Path.ofText dir).join (.ofText hint)).join (.ofText name))]) ++ others) := by
  unfold external at honly ⊢
  rw [if_neg (by simp [hhint])] at honly ⊢
  -- The induction is on the directories alone; what comes after them stays.
  generalize s.dirs = dirs at honly ⊢
  induction dirs with
  | nil => exact hrest
  | cons dir dirs ih =>
    rw [List.map_cons, List.cons_append] at honly ⊢
    rw [List.flatMap_cons, List.append_assoc]
    have hothers := ih (List.forall_mem_cons.mp honly).2
    by_cases hdir : dir.isEmpty = true
    · rw [if_pos hdir] at honly ⊢
      rw [if_pos hdir]
      exact warnsOf_firstOf_cons honly (result_inPlaceOfDirectory t s.bundle name hint)
        (warnsOf_inPlaceOfDirectory t s.bundle name hint) hothers
    · rw [if_neg hdir] at honly ⊢
      rw [if_neg hdir]
      refine warnsOf_firstOf_cons honly ?_ (warnsOf_inDirectory t s.bundle name _) hothers
      rw [Candidate.firstLook_singleton]
      exact result_inDirectory t s.bundle name _

/-- A search for a file warns of its places. -/
theorem warnsOf_locate : WarnsOf t s.bundle (s.locate t name hint) (s.candidates name hint) := by
  have honly := s.onlyTells_tiers t name hint
  have hlast : ∀ tier ∈ [inBundle t s.bundle name, inDefaults t s.bundle name], tier.OnlyTells :=
    fun tier htier => honly tier (List.mem_append_right _ htier)
  have hnothing : WarnsOf t s.bundle (firstOf []) [] := fun _ _ => ⟨[], rfl, .nil⟩
  have hbundle := warnsOf_firstOf_cons hlast (result_inBundle t s.bundle name)
    (warnsOf_inBundle t s.bundle name)
    (warnsOf_firstOf_cons (List.forall_mem_cons.mp hlast).2 (result_inDefaults t s.bundle name)
      (warnsOf_inDefaults t s.bundle name) hnothing)
  rw [List.append_nil] at hbundle
  have htiers : WarnsOf t s.bundle (firstOf (s.external t name hint ++
      [inBundle t s.bundle name, inDefaults t s.bundle name])) (s.candidates name hint) := by
    unfold candidates
    by_cases hhint : isAbsoluteHint hint = true
    · rw [if_pos hhint, List.append_assoc]
      unfold external at honly ⊢
      rw [if_pos hhint] at honly ⊢
      refine warnsOf_firstOf_cons honly ?_ (warnsOf_inDirectory t s.bundle name _) hbundle
      rw [Candidate.firstLook_singleton]
      exact result_inDirectory t s.bundle name _
    · rw [if_neg hhint, List.append_assoc]
      exact warnsOf_firstOf_dirs t s name hint (by simpa using hhint) honly hbundle
  -- What is said at the end is no warning.
  unfold locate
  refine htiers.bind_report (onlyTells_firstOf honly) ?_
  rintro (_ | found)
  · exact ⟨_, (Act.tells_tell _ _ _).bind (Act.tells_pure _), rfl⟩
  · exact ⟨_, Act.tells_pure _, rfl⟩

/-- A search that does not fail tells as many warnings as the places that it looks at, up to its
first hit, come with: one for a path that something stands in the way of, and for a file or a
resource of the bundle that refuses to be opened, and none for a place that opens or is absent. But
in the folder of a bundle there is none for whatever else stands in the way. -/
theorem warnings_of_visited {found : Option Stream} {st st' : Store}
    (h : (s.locate t name hint).run.run st = (.ok found, st')) :
    ∃ (lines : List Line) (told : List (Option Line)),
      st' = { st with log := st.log ++ lines } ∧ warnings lines = told.filterMap id ∧
      List.Forall₂ (Candidate.Says t s.bundle)
        (Candidate.visited t s.bundle (s.candidates name hint)) told := by
  rw [s.tells_locate] at h
  obtain ⟨hfound, rfl⟩ := Prod.mk.inj h
  obtain ⟨told, hlines, hsaid⟩ := s.warnsOf_locate t name hint found hfound
  exact ⟨_, told, rfl, hlines, hsaid⟩

end Search

/-! A folder in place of the file, in a directory and in the bundle. -/
namespace TwoFolders

/-- A directory, and a folder as the bundle. -/
def search : Search := ⟨["/d"], some (.folder ⟨1, ["b"]⟩)⟩

/-- Both have a folder by the name of the file. -/
def files : FileTree :=
  ⟨[(["d"], .folder), (["d", "x.yml"], .folder), (["b"], .folder), (["b", "x.yml"], .folder)], []⟩

/-- All places are looked at. -/
def places : List Candidate :=
  [.file ⟨1, ["d", "x.yml"]⟩, .bundled ⟨1, ["b", "x.yml"]⟩, .bundled ⟨1, ["b", "config", "x.yml"]⟩]

/-- The search finds nothing, and warns of its places as each of them says. -/
theorem warned_by_places : ∃ (st' : Store) (told : List (Option Line)),
    (search.locate files "x.yml" "").run.run .empty = (.ok none, st') ∧
      warnings st'.log = told.filterMap id ∧
      List.Forall₂ (Candidate.Says files search.bundle) places told := by
  have hrun : (search.locate files "x.yml" "").run.run .empty = (.ok none, _) := rfl
  obtain ⟨lines, told, hst, hlines, hsaid⟩ := search.warnings_of_visited files "x.yml" "" hrun
  exact ⟨_, told, hrun, (congrArg (fun st => warnings st.log) hst).trans hlines, hsaid⟩

/-- Both folders stand in the way of a place that is looked at, and only the first is warned of. -/
theorem bundled_folder_unwarned :
    (files.open? ⟨1, ["b", "x.yml"]⟩ = .error .folder ∧
      .bundled ⟨1, ["b", "x.yml"]⟩ ∈
        Candidate.visited files search.bundle (search.candidates "x.yml" "")) ∧
    warnings ((search.locate files "x.yml" "").run.run .empty).2.log =
      [⟨.warning, "CONFIG", "Unable to open /d/x.yml: Is a directory"⟩] :=
  ⟨⟨rfl, List.mem_cons_of_mem _ List.mem_cons_self⟩, by decide +kernel⟩

end TwoFolders
end Stratum
