import Mathlib.Data.List.TakeWhile
import Stratum.Proofs.Resolve.Extensions
import Stratum.Proofs.Search.Warnings
import Stratum.Proofs.Text.Printable

/-!
# The last notice

A name of which no extension has a file comes to nothing, and the last line of the search is a
notice about it. The notice is told once, and it names what comes before the first point of the name
(`Search.last_notice_names_stem`). So it names the config if there is no point in its name, and of
another one only a part.
-/

namespace Stratum

open Text (Printable escape escapeChar toList_escape)

/-! ## Acts that tell lines of a kind -/

namespace Act

variable {α β : Type} {P : Line → Prop}

/-- An act does nothing but tell lines, all of a kind. -/
def TellsOf (P : Line → Prop) (act : Act α) : Prop :=
  ∃ r told, act.Tells r told ∧ ∀ line ∈ told, P line

/-- An answer tells no lines. -/
theorem tellsOf_pure (a : α) : TellsOf P (pure a) :=
  ⟨_, _, tells_pure a, fun _ h => absurd h List.not_mem_nil⟩

/-- A failure tells no lines. -/
theorem tellsOf_throw (e : Failure) : TellsOf P (throw e : Act α) :=
  ⟨_, _, tells_throw e, fun _ h => absurd h List.not_mem_nil⟩

/-- Telling the logger tells a line of its kind. -/
theorem tellsOf_tell {level : Level} {topic message : String} (h : P ⟨level, topic, message⟩) :
    TellsOf P (tell level topic message) :=
  ⟨_, _, tells_tell level topic message, List.forall_mem_singleton.mpr h⟩

/-- Acts that tell lines of a kind do so one after the other. -/
theorem TellsOf.bind {x : Act α} {f : α → Act β} (hx : x.TellsOf P) (hf : ∀ a, (f a).TellsOf P) :
    (x >>= f).TellsOf P := by
  obtain ⟨r, told, hx, hlines⟩ := hx
  cases r with
  | error e => exact ⟨_, _, hx.bind_error, hlines⟩
  | ok a =>
    obtain ⟨r', told', hf, hlines'⟩ := hf a
    exact ⟨r', _, hx.bind hf, List.forall_mem_append.mpr ⟨hlines, hlines'⟩⟩

end Act

namespace Search

/-! ## The notice -/

/-- How the last notice starts. -/
def noticeStart : String := "Unable to load config '"

/-- How the last notice ends. -/
def noticeEnd : String :=
  "' with extension yml, yaml and json from external config, application config and " ++
    "module config. Please ignore this message if you are sure that your application is not " ++
    "using this config file."

/-- The last notice about a name, with the name escaped. -/
def lastNotice (name : String) : Line :=
  ⟨.verbose, topic, noticeStart ++ escape name ++ noticeEnd⟩

/-- What comes before the first point of a name. -/
def stem (name : String) : String := String.ofList (name.toList.takeWhile (· != '.'))

/-- A line that is no last notice, of whatever name. -/
def IsOther (line : Line) : Prop := ∀ name, line ≠ lastNotice name

/-- A warning is another line. -/
theorem isOther_warning (topic message : String) : IsOther ⟨.warning, topic, message⟩ := by
  rintro name ⟨⟩

/-- A line that starts in another way is another line. -/
theorem isOther_of_start {start : String} (h : ¬ start.toList <+: noticeStart.toList)
    (h' : ¬ noticeStart.toList <+: start.toList) (level : Level) (topic rest : String) :
    IsOther ⟨level, topic, start ++ rest⟩ := by
  intro name heq
  have hmessage : start ++ rest = noticeStart ++ escape name ++ noticeEnd :=
    congrArg Line.message heq
  have hown : start.toList <+: (start ++ rest).toList :=
    String.toList_append ▸ List.prefix_append _ _
  have hnotice : noticeStart.toList <+: (start ++ rest).toList := by
    rw [hmessage, String.append_assoc, String.toList_append]
    exact List.prefix_append _ _
  rcases List.prefix_or_prefix_of_prefix hown hnotice with hfront | hfront
  · exact h hfront
  · exact h' hfront

/-- A line that ends in another way than the last words of the notice is another line. -/
theorem isOther_of_end {ending : String} (h : ¬ ending.toList <:+ "using this config file.".toList)
    (h' : ¬ "using this config file.".toList <:+ ending.toList) (level : Level)
    (topic rest : String) : IsOther ⟨level, topic, rest ++ ending⟩ := by
  intro name heq
  have hmessage : rest ++ ending = noticeStart ++ escape name ++ noticeEnd :=
    congrArg Line.message heq
  have hown : ending.toList <:+ (rest ++ ending).toList :=
    String.toList_append ▸ List.suffix_append _ _
  have hwords : "using this config file.".toList <:+ noticeEnd.toList := by
    unfold noticeEnd
    simp only [String.toList_append]
    exact List.suffix_append _ _
  have hnotice : noticeEnd.toList <:+ (rest ++ ending).toList := by
    rw [hmessage, String.toList_append]
    exact List.suffix_append _ _
  rcases List.suffix_or_suffix_of_suffix hown (hwords.trans hnotice) with hsuffix | hsuffix
  · exact h hsuffix
  · exact h' hsuffix

/-- The last notices of two names are the same exactly if the names are escaped alike. -/
theorem lastNotice_inj {name other : String} :
    lastNotice name = lastNotice other ↔ escape name = escape other := by
  refine ⟨fun h => ?_, fun h => by rw [lastNotice, h, lastNotice]⟩
  have hmessage : (noticeStart ++ escape name ++ noticeEnd).toList =
      (noticeStart ++ escape other ++ noticeEnd).toList :=
    congrArg (fun line => line.message.toList) h
  simp only [String.toList_append] at hmessage
  exact String.toList_inj.mp (List.append_cancel_left (List.append_cancel_right hmessage))

/-- Printable names are the same if they are escaped alike. -/
theorem escape_inj {name other : String} (hname : Printable name) (hother : Printable other) :
    escape name = escape other ↔ name = other := by
  rw [Text.escape_eq_self_iff.mpr hname, Text.escape_eq_self_iff.mpr hother]

/-- A name is what comes before its first point, if there is no point in it. -/
theorem stem_eq_self {name : String} (h : '.' ∉ name.toList) : stem name = name := by
  have hall : ∀ c ∈ name.toList, (c != '.') = true := by
    intro c hc
    rw [bne_iff_ne]
    rintro rfl
    exact h hc
  rw [stem, List.takeWhile_eq_self_iff.mpr hall, String.ofList_toList]

/-- What comes before the first point of a printable name is printable. -/
theorem printable_stem {name : String} (h : Printable name) : Printable (stem name) :=
  Text.printable_ofList.mpr fun c hc => h c (List.takeWhile_subset _ hc)

/-- A character is spelled by something. -/
theorem escapeChar_ne_nil (c : Char) : escapeChar c ≠ [] := by
  unfold escapeChar Text.codeEscape
  split_ifs <;> exact List.cons_ne_nil _ _

/-- What comes before the first point is escaped like the name exactly if there is no point in it:
else what is behind is missing. -/
theorem escape_stem {name : String} : escape (stem name) = escape name ↔ '.' ∉ name.toList := by
  refine ⟨fun heq hpoint => ?_, fun h => by rw [stem_eq_self h]⟩
  have hsplit : name.toList = (stem name).toList ++ name.toList.dropWhile (· != '.') := by
    rw [stem, String.toList_ofList, List.takeWhile_append_dropWhile]
  have hrest : (name.toList.dropWhile (· != '.')).flatMap escapeChar = [] := by
    have hchars := congrArg String.toList heq
    rw [toList_escape, toList_escape, hsplit, List.flatMap_append] at hchars
    exact List.self_eq_append_right.mp hchars
  rcases hdrop : name.toList.dropWhile (· != '.') with _ | ⟨c, rest⟩
  · have hall := List.dropWhile_eq_nil_iff.mp hdrop '.' hpoint
    cases hall
  · rw [hdrop, List.flatMap_cons] at hrest
    exact escapeChar_ne_nil c (List.append_eq_nil_iff.mp hrest).1

/-- An extension behind a name does not matter to what comes before its first point. -/
theorem stem_append (name : String) {extension : String}
    (h : extension.toList.head? = some '.') : stem (name ++ extension) = stem name := by
  obtain ⟨rest, hrest⟩ : ∃ rest, extension.toList = '.' :: rest :=
    List.head?_eq_some_iff.mp h
  rw [stem, stem, String.toList_append, hrest]
  congr 1
  induction name.toList with
  | nil => rfl
  | cons c cs ih =>
    rw [List.cons_append, List.takeWhile_cons, List.takeWhile_cons, ih]

/-- Of a file without the first two extensions the last notice is told. -/
theorem missText_of_others {filename : String} (hyml : Document.endsIn ".yml" filename = false)
    (hyaml : Document.endsIn ".yaml" filename = false) :
    missText filename = (lastNotice (stem filename)).message := by
  unfold missText
  dsimp only
  rw [hyml, hyaml, if_neg Bool.false_ne_true, if_neg Bool.false_ne_true]
  unfold lastNotice noticeEnd
  dsimp only
  rw [← String.append_assoc, ← String.append_assoc]
  rfl

/-- What is said about a file name with one of the extensions: behind the first two, that another
one is tried, and behind the last one the last notice. -/
theorem missText_eq {e : String} (he : e ∈ Document.extensions) (name : String) :
    (e = ".json" ∧ missText (name ++ e) = (lastNotice (stem name)).message) ∨
      (e ≠ ".json" ∧ IsOther ⟨.verbose, topic, missText (name ++ e)⟩) := by
  -- The name may be anything: how it ends is decided by the extension behind it.
  have hends : ∀ ending, Document.endsIn ending (name ++ e) =
      ending.toList.reverse.isPrefixOf (e.toList.reverse ++ name.toList.reverse) := by
    intro ending
    rw [Document.endsIn, List.isSuffixOf, String.toList_append, List.reverse_append]
  have hother : ∀ rest, IsOther ⟨.verbose, topic, rest ++ "..."⟩ :=
    isOther_of_end (by decide +kernel) (by decide +kernel) _ _
  simp only [Document.extensions, List.mem_cons, List.not_mem_nil, or_false] at he
  rcases he with rfl | rfl | rfl
  · have hyml : Document.endsIn ".yml" (name ++ ".yml") = true := by
      rw [hends]
      rfl
    refine .inr ⟨by decide, ?_⟩
    rw [missText, hyml, if_pos rfl]
    exact hother _
  · have hyml : Document.endsIn ".yml" (name ++ ".yaml") = false := by
      rw [hends]
      rfl
    have hyaml : Document.endsIn ".yaml" (name ++ ".yaml") = true := by
      rw [hends]
      rfl
    refine .inr ⟨by decide, ?_⟩
    rw [missText, hyml, hyaml, if_neg Bool.false_ne_true, if_pos rfl]
    exact hother _
  · have hyml : Document.endsIn ".yml" (name ++ ".json") = false := by
      rw [hends]
      rfl
    have hyaml : Document.endsIn ".yaml" (name ++ ".json") = false := by
      rw [hends]
      rfl
    refine .inl ⟨rfl, ?_⟩
    rw [missText_of_others hyml hyaml, stem_append name (by decide)]

/-! ## What is told before -/

section Tiers

open Act (TellsOf tellsOf_pure tellsOf_throw tellsOf_tell)

variable (t : FileTree) (bundle : Option Bundle)

/-- Opening a file tells other lines. -/
theorem tellsOf_openFile (p : Path) : (openFile t p).TellsOf IsOther := by
  unfold openFile
  split
  · exact tellsOf_pure _
  · exact tellsOf_pure _
  · split
    · exact tellsOf_throw _
    · exact (tellsOf_tell (isOther_warning _ _)).bind fun _ => tellsOf_pure _

/-- A look whether a file is there tells other lines. -/
theorem tellsOf_isFile (p : Path) : (isFile t p).TellsOf IsOther := by
  unfold isFile
  split
  · exact tellsOf_pure _
  · split
    · exact tellsOf_pure _
    · split
      · exact tellsOf_pure _
      · exact tellsOf_throw _

/-- A warning about a file of the bundle is another line. -/
theorem tellsOf_skipBundled (relative : String) (r : Refusal) :
    (skipBundled relative r).TellsOf IsOther :=
  (tellsOf_tell (isOther_warning _ _)).bind fun _ => tellsOf_pure _

/-- Opening a file of the bundle tells other lines. -/
theorem tellsOf_openBundled (relative : String) :
    (openBundled t bundle relative).TellsOf IsOther := by
  unfold openBundled
  split
  · exact tellsOf_pure _
  · refine (tellsOf_isFile t _).bind fun found => ?_
    split
    · split
      · exact tellsOf_pure _
      · split
        · exact tellsOf_throw _
        · exact tellsOf_skipBundled ..
    · exact tellsOf_pure _
  · split
    · exact tellsOf_pure _
    · split
      · exact tellsOf_pure _
      · exact tellsOf_skipBundled ..

/-- A report that starts in another way tells another line. -/
theorem tellsOf_report {start : String} (h : ¬ start.toList <+: noticeStart.toList)
    (h' : ¬ noticeStart.toList <+: start.toList) (rest : String) :
    (report (start ++ rest)).TellsOf IsOther :=
  tellsOf_tell (isOther_of_start h h' _ _ rest)

/-- A look into a directory tells other lines. -/
theorem tellsOf_inDirectory (name : String) (dir : Path) :
    (inDirectory t name dir).TellsOf IsOther := by
  unfold inDirectory
  refine (tellsOf_openFile t _).bind fun found => ?_
  dsimp only
  split
  · exact (tellsOf_report (by decide +kernel) (by decide +kernel) _).bind fun _ => tellsOf_pure _
  · exact (tellsOf_report (by decide +kernel) (by decide +kernel) _).bind fun _ => tellsOf_pure _

/-- A look into the bundle in place of a directory tells other lines. -/
theorem tellsOf_inPlaceOfDirectory (name hint : String) :
    (inPlaceOfDirectory t bundle name hint).TellsOf IsOther := by
  unfold inPlaceOfDirectory
  split
  · exact tellsOf_pure _
  · refine (tellsOf_openBundled t bundle _).bind fun found => ?_
    split
    · exact (tellsOf_report (by decide +kernel) (by decide +kernel) _).bind fun _ => tellsOf_pure _
    · exact (tellsOf_report (by decide +kernel) (by decide +kernel) _).bind fun _ => tellsOf_pure _

/-- A look into the bundle tells other lines. -/
theorem tellsOf_inBundle (name : String) : (inBundle t bundle name).TellsOf IsOther := by
  unfold inBundle
  refine (tellsOf_report (by decide +kernel) (by decide +kernel) _).bind fun _ => ?_
  refine (tellsOf_openBundled t bundle _).bind fun found => ?_
  split
  · exact (tellsOf_report (by decide +kernel) (by decide +kernel) _).bind fun _ => tellsOf_pure _
  · exact tellsOf_pure _

/-- A look into the folder for defaults tells other lines. -/
theorem tellsOf_inDefaults (name : String) : (inDefaults t bundle name).TellsOf IsOther := by
  unfold inDefaults
  refine (tellsOf_openBundled t bundle _).bind fun found => ?_
  split
  · exact (tellsOf_report (by decide +kernel) (by decide +kernel) _).bind fun _ => tellsOf_pure _
  · exact tellsOf_pure _

/-- The first stream that is found is found by telling other lines if each search does so. -/
theorem tellsOf_firstOf {tiers : List (Act (Option Stream))}
    (h : ∀ tier ∈ tiers, tier.TellsOf IsOther) : (firstOf tiers).TellsOf IsOther := by
  induction tiers with
  | nil => exact tellsOf_pure _
  | cons tier rest ih =>
    obtain ⟨htier, hrest⟩ := List.forall_mem_cons.mp h
    unfold firstOf
    refine htier.bind fun found => ?_
    cases found with
    | some s => exact tellsOf_pure _
    | none => exact ih hrest

/-- The searches in all tiers tell other lines. -/
theorem tellsOf_tiers (s : Search) (name hint : String) : ∀ tier ∈ s.external t name hint ++
    [inBundle t s.bundle name, inDefaults t s.bundle name], tier.TellsOf IsOther := by
  intro tier htier
  rcases List.mem_append.mp htier with htier | htier
  · unfold external at htier
    split at htier
    · rw [List.mem_singleton.mp htier]
      exact tellsOf_inDirectory t name _
    · obtain ⟨dir, -, rfl⟩ := List.mem_map.mp htier
      split
      · exact tellsOf_inPlaceOfDirectory t s.bundle name hint
      · exact tellsOf_inDirectory t name _
  · simp only [List.mem_cons, List.not_mem_nil, or_false] at htier
    rcases htier with rfl | rfl
    · exact tellsOf_inBundle t s.bundle name
    · exact tellsOf_inDefaults t s.bundle name

end Tiers

variable {s : Search} {t : FileTree} {name hint filename : String}

/-- A search that finds nothing tells other lines, and at last what is said about its file. -/
theorem told_of_missed (h : s.found t filename hint = .ok none) :
    ∃ earlier, s.told t filename hint = earlier ++ [⟨.verbose, topic, missText filename⟩] ∧
      ∀ line ∈ earlier, IsOther line := by
  obtain ⟨r, told, htells, hother⟩ := tellsOf_firstOf (tellsOf_tiers t s filename hint)
  have hlocate : ∀ r' lines, (s.locate t filename hint).Tells r' lines →
      r' = .ok none ∧ s.told t filename hint = lines := by
    intro r' lines hown
    have hsearch := s.tells_locate t filename hint
    exact ⟨hown.result_eq.symm.trans (hsearch.result_eq.trans h),
      hsearch.lines_eq.symm.trans hown.lines_eq⟩
  rcases r with e | _ | stream
  · cases (hlocate _ _ htells.bind_error).1
  · have hreport : (report (missText filename)).Tells (.ok ()) _ := Act.tells_tell _ _ _
    obtain ⟨-, hlines⟩ := hlocate _ _ (htells.bind (hreport.bind (Act.tells_pure none)))
    exact ⟨told, hlines, hother⟩
  · cases (hlocate _ _ (htells.bind (Act.tells_pure (some stream)))).1

/-- A file that is not found is told of by its search only. -/
theorem missed_of_not_found (h : s.found t filename hint = .ok none) :
    s.missed t filename hint = s.told t filename hint := by
  rw [missed, h]
  exact List.append_nil _

/-- Searches for a name with each extension that find nothing tell other lines, and at last the last
notice. -/
theorem missed_extensions
    (h : ∀ e ∈ Document.extensions, s.found t (name ++ e) hint = .ok none) :
    ∃ earlier, (Document.extensions.flatMap fun e => s.missed t (name ++ e) hint) =
        earlier ++ [lastNotice (stem name)] ∧
      ∀ line ∈ earlier, IsOther line := by
  have htold : ∀ e ∈ Document.extensions, ∃ earlier, s.missed t (name ++ e) hint =
      earlier ++ [⟨.verbose, topic, missText (name ++ e)⟩] ∧ ∀ line ∈ earlier, IsOther line := by
    intro e he
    rw [missed_of_not_found (h e he)]
    exact told_of_missed (h e he)
  -- For the first two extensions another line is told at last.
  have hother : ∀ e ∈ Document.extensions, e ≠ ".json" →
      ∀ line ∈ s.missed t (name ++ e) hint, IsOther line := by
    intro e he hne
    obtain ⟨earlier, hmissed, hearlier⟩ := htold e he
    rw [hmissed]
    obtain ⟨heq, -⟩ | ⟨-, hlast⟩ := missText_eq he name
    · exact absurd heq hne
    · exact List.forall_mem_append.mpr ⟨hearlier, List.forall_mem_singleton.mpr hlast⟩
  have hjson : ".json" ∈ Document.extensions := by decide
  obtain ⟨earlier, hmissed, hearlier⟩ := htold ".json" hjson
  obtain ⟨-, hlast⟩ | ⟨hne, -⟩ := missText_eq hjson name
  · refine ⟨s.missed t (name ++ ".yml") hint ++ s.missed t (name ++ ".yaml") hint ++ earlier,
      ?_, ?_⟩
    · rw [hlast] at hmissed
      simp only [Document.extensions, List.flatMap_cons, List.flatMap_nil, List.append_nil,
        List.append_assoc, hmissed]
      rfl
    · exact List.forall_mem_append.mpr ⟨List.forall_mem_append.mpr
        ⟨hother _ (by decide) (by decide), hother _ (by decide) (by decide)⟩, hearlier⟩
  · exact absurd rfl hne

/-- A name of which no extension has a file, and no search fails, comes to nothing. The last line
that is told is a notice, and no other line is such a notice, of whatever name. It names what comes
before the first point of the name. So the name that was looked for is in it exactly if there is no
point in the name, and printable names have different notices exactly if they differ before their
first points. -/
theorem last_notice_names_stem (r : Resolver) (t : FileTree) (name hint : String)
    (hmissed : ∀ e ∈ Document.extensions, r.search.found t (name ++ e) hint = .ok none) :
    (∃ earlier, (r.resolveMap t name hint).Tells (.ok none)
        (earlier ++ [lastNotice (stem name)]) ∧
      ∀ line ∈ earlier, ∀ other, line ≠ lastNotice other) ∧
    (lastNotice (stem name) = lastNotice name ↔ '.' ∉ name.toList) ∧
    ∀ other, Printable name → Printable other →
      (lastNotice (stem name) = lastNotice (stem other) ↔ stem name = stem other) := by
  refine ⟨?_, lastNotice_inj.trans escape_stem, fun other hname hother => ?_⟩
  · obtain ⟨earlier, hlines, hearlier⟩ := missed_extensions hmissed
    refine ⟨earlier, fun st => ?_, hearlier⟩
    have hunread : ∀ e ∈ Document.extensions,
        r.search.readable t (name ++ e) hint = none := by
      intro e he
      rw [readable, hmissed e he]
    rw [← hlines]
    exact run_resolveMap_of_missed (fun e he => ⟨none, hmissed e he⟩) hunread r.provider st
  · exact lastNotice_inj.trans (escape_inj (printable_stem hname) (printable_stem hother))

end Search

/-! Two names with the same letters before a point. -/
namespace PointInName

open Search (lastNotice stem)

/-- One directory to look into, and nothing laid over. -/
def resolver : Resolver := ⟨⟨["/d"], none⟩, Overlay.nothing⟩

/-- No files but the directory. -/
def files : FileTree := ⟨[(["d"], .folder)], []⟩

/-- No extension of either name has a file. -/
theorem nothing_found : ∀ name ∈ ["db.prod", "db.test"], ∀ e ∈ Document.extensions,
    resolver.search.found files (name ++ e) "" = .ok none := by
  simp only [Document.extensions, List.forall_mem_cons]
  exact ⟨⟨rfl, rfl, rfl, fun e he => absurd he List.not_mem_nil⟩,
    ⟨rfl, rfl, rfl, fun e he => absurd he List.not_mem_nil⟩, fun e he => absurd he List.not_mem_nil⟩

/-- The notice about a name with a point is about a part of it. -/
theorem part_named : (∀ e ∈ Document.extensions,
      resolver.search.found files ("db.prod" ++ e) "" = .ok none) ∧
    (∃ earlier, (resolver.resolveMap files "db.prod" "").Tells (.ok none)
      (earlier ++ [lastNotice "db"])) ∧
    lastNotice "db" ≠ lastNotice "db.prod" := by
  have hmissed := nothing_found "db.prod" List.mem_cons_self
  obtain ⟨⟨earlier, htells, -⟩, hwhole, -⟩ :=
    Search.last_notice_names_stem resolver files "db.prod" "" hmissed
  have hstem : stem "db.prod" = "db" := by decide +kernel
  rw [hstem] at htells hwhole
  exact ⟨hmissed, ⟨earlier, htells⟩, fun h => hwhole.mp h (by decide)⟩

/-- Two printable names have the same notice, told as the last line, and neither is named in it. -/
theorem same_notice : "db.prod" ≠ "db.test" ∧ ∀ name ∈ ["db.prod", "db.test"],
    Text.Printable name ∧
    (∀ e ∈ Document.extensions, resolver.search.found files (name ++ e) "" = .ok none) ∧
    ((resolver.resolveMap files name "").run.run .empty).1 = .ok none ∧
    ((resolver.resolveMap files name "").run.run .empty).2.log.getLast? = some (lastNotice "db") ∧
    lastNotice "db" ≠ lastNotice name := by
  have hprintable : ∀ name ∈ ["db.prod", "db.test"],
      name.toList.all Text.isPrintable = true := by
    decide +kernel
  refine ⟨by decide, fun name hname => ?_⟩
  refine ⟨List.all_eq_true.mp (hprintable name hname), nothing_found name hname, ?_⟩
  simp only [List.mem_cons, List.not_mem_nil, or_false] at hname
  rcases hname with rfl | rfl
  · exact ⟨rfl, by decide +kernel, by decide +kernel⟩
  · exact ⟨rfl, by decide +kernel, by decide +kernel⟩

end PointInName
end Stratum
