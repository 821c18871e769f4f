import Stratum.Proofs.Act
import Stratum.Search

/-!
# What a search tells

A search makes nothing: it comes to an answer or a failure and tells the logger lines, and neither
depends on what was made or told before. So a search has a result and lines of its own.
-/

namespace Stratum

namespace Search

open Act (OnlyTells onlyTells_pure onlyTells_throw onlyTells_tell)

variable (t : FileTree) (bundle : Option Bundle)

/-- Opening a file does nothing but tell lines. -/
theorem onlyTells_openFile (p : Path) : (openFile t p).OnlyTells := by
  unfold openFile
  split
  · exact onlyTells_pure _
  · exact onlyTells_pure _
  · split
    · exact onlyTells_throw _
    · exact (onlyTells_tell ..).bind fun _ => onlyTells_pure _

/-- A look whether a file is there does nothing but tell lines. -/
theorem onlyTells_isFile (p : Path) : (isFile t p).OnlyTells := by
  unfold isFile
  split
  · exact onlyTells_pure _
  · split
    · exact onlyTells_pure _
    · split
      · exact onlyTells_pure _
      · exact onlyTells_throw _

/-- A warning is all that is told of a file of the bundle that cannot be opened. -/
theorem onlyTells_skipBundled (relative : String) (r : Refusal) :
    (skipBundled relative r).OnlyTells :=
  (onlyTells_tell ..).bind fun _ => onlyTells_pure _

/-- Opening a file of the bundle does nothing but tell lines. -/
theorem onlyTells_openBundled (relative : String) : (openBundled t bundle relative).OnlyTells := by
  unfold openBundled
  split
  · exact onlyTells_pure _
  · refine (onlyTells_isFile t _).bind fun found => ?_
    split
    · split
      · exact onlyTells_pure _
      · split
        · exact onlyTells_throw _
        · exact onlyTells_skipBundled ..
    · exact onlyTells_pure _
  · split
    · exact onlyTells_pure _
    · split
      · exact onlyTells_pure _
      · exact onlyTells_skipBundled ..

/-- A verbose line is all that a report tells. -/
theorem onlyTells_report (message : String) : (report message).OnlyTells := onlyTells_tell ..

/-- A look into a directory does nothing but tell lines. -/
theorem onlyTells_inDirectory (name : String) (dir : Path) :
    (inDirectory t name dir).OnlyTells := by
  unfold inDirectory
  refine (onlyTells_openFile t _).bind fun found => ?_
  dsimp only
  split <;> exact (onlyTells_report _).bind fun _ => onlyTells_pure _

/-- A look into the bundle in place of a directory does nothing but tell lines. -/
theorem onlyTells_inPlaceOfDirectory (name hint : String) :
    (inPlaceOfDirectory t bundle name hint).OnlyTells := by
  unfold inPlaceOfDirectory
  split
  · exact onlyTells_pure _
  · refine (onlyTells_openBundled t bundle _).bind fun found => ?_
    split <;> exact (onlyTells_report _).bind fun _ => onlyTells_pure _

/-- A look into the bundle does nothing but tell lines. -/
theorem onlyTells_inBundle (name : String) : (inBundle t bundle name).OnlyTells := by
  unfold inBundle
  refine (onlyTells_report _).bind fun _ => (onlyTells_openBundled t bundle _).bind fun found => ?_
  split
  · exact (onlyTells_report _).bind fun _ => onlyTells_pure _
  · exact onlyTells_pure _

/-- A look into the folder for defaults does nothing but tell lines. -/
theorem onlyTells_inDefaults (name : String) : (inDefaults t bundle name).OnlyTells := by
  unfold inDefaults
  refine (onlyTells_openBundled t bundle _).bind fun found => ?_
  split
  · exact (onlyTells_report _).bind fun _ => onlyTells_pure _
  · exact onlyTells_pure _

/-- The first stream that is found is found by telling lines if each search does no more. -/
theorem onlyTells_firstOf {tiers : List (Act (Option Stream))}
    (h : ∀ tier ∈ tiers, tier.OnlyTells) : (firstOf tiers).OnlyTells := by
  induction tiers with
  | nil => exact onlyTells_pure _
  | cons tier rest ih =>
    obtain ⟨htier, hrest⟩ := List.forall_mem_cons.mp h
    unfold firstOf
    refine htier.bind fun found => ?_
    cases found with
    | some s => exact onlyTells_pure _
    | none => exact ih hrest

variable (s : Search) (name hint : String)

/-- Each of the searches in the directories does nothing but tell lines. -/
theorem onlyTells_external : ∀ tier ∈ s.external t name hint, tier.OnlyTells := by
  intro tier htier
  unfold external at htier
  split at htier
  · rw [List.mem_singleton.mp htier]
    exact onlyTells_inDirectory t name _
  · obtain ⟨dir, -, rfl⟩ := List.mem_map.mp htier
    split
    · exact onlyTells_inPlaceOfDirectory t s.bundle name hint
    · exact onlyTells_inDirectory t name _

/-- Each of the searches in all tiers does nothing but tell lines. -/
theorem onlyTells_tiers : ∀ tier ∈ s.external t name hint ++
    [inBundle t s.bundle name, inDefaults t s.bundle name], tier.OnlyTells := by
  intro tier htier
  rcases List.mem_append.mp htier with htier | htier
  · exact s.onlyTells_external t name hint tier htier
  · simp only [List.mem_cons, List.not_mem_nil, or_false] at htier
    rcases htier with rfl | rfl
    · exact onlyTells_inBundle t s.bundle name
    · exact onlyTells_inDefaults t s.bundle name

/-- What a search for a file finds in the files: a stream or nothing, or why it fails. -/
def found : Except Failure (Option Stream) := (s.locate t name hint).result

/-- The lines that a search for a file tells. -/
def told : List Line := (s.locate t name hint).lines

/-- A search for a file comes to what it finds and tells its lines, whatever was done before. -/
theorem tells_locate : (s.locate t name hint).Tells (s.found t name hint) (s.told t name hint) := by
  refine Act.OnlyTells.tells ?_
  unfold locate
  refine (onlyTells_firstOf (s.onlyTells_tiers t name hint)).bind fun found => ?_
  cases found with
  | some stream => exact onlyTells_pure _
  | none => exact (onlyTells_report _).bind fun _ => onlyTells_pure _

end Search
end Stratum
