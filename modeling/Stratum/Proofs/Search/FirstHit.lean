import Stratum.Proofs.Engine.Session
import Stratum.Proofs.Search.Candidates

/-!
# The first hit

A search looks at its places in order, up to the first one that opens as a file
(`Search.locate_first_hit`). It fails only where a look on the way fails, with that look's failure
(`Candidate.firstLook_eq_error_iff`).
-/

namespace Stratum

namespace Candidate

variable {t t' : FileTree} {bundle bundle' : Option Bundle} {c : Candidate} {cs : List Candidate}
  {found : Option Stream} {e : Failure}

/-- A place is reached among others if none of those before it opens as a file. -/
def Reached (t : FileTree) (bundle : Option Bundle) (cs : List Candidate) (c : Candidate) : Prop :=
  ∃ earlier later, cs = earlier ++ c :: later ∧ ∀ x ∈ earlier, x.stream? t bundle = none

/-- The first place is reached. -/
theorem reached_head : Reached t bundle (c :: cs) c :=
  ⟨[], cs, rfl, fun _ hx => absurd hx List.not_mem_nil⟩

/-- Behind a place that does not open as a file the same places are reached. -/
theorem Reached.cons {d : Candidate} (h : Reached t bundle cs c) (hd : d.stream? t bundle = none) :
    Reached t bundle (d :: cs) c := by
  obtain ⟨earlier, later, rfl, hearlier⟩ := h
  exact ⟨d :: earlier, later, rfl, List.forall_mem_cons.mpr ⟨hd, hearlier⟩⟩

/-- Nothing behind a place that opens as a file is reached. -/
theorem Reached.eq_head {d : Candidate} {stream : Stream} (h : Reached t bundle (c :: cs) d)
    (hc : c.stream? t bundle = some stream) : d = c := by
  obtain ⟨earlier, later, heq, hearlier⟩ := h
  cases earlier with
  | nil => exact (List.cons.inj heq).1.symm
  | cons x earlier =>
    obtain rfl := (List.cons.inj heq).1
    cases (hearlier c List.mem_cons_self).symm.trans hc

/-- A look that does not fail finds the stream of its place. -/
theorem stream?_of_look (h : c.look t bundle = .ok found) : c.stream? t bundle = found := by
  unfold look at h
  split at h
  · cases h
  · exact Except.ok.inj h

/-- Looks of which none fails find the first place that opens as a file. -/
theorem eq_findSome?_of_firstLook (h : firstLook t bundle cs = .ok found) :
    found = cs.findSome? (stream? t bundle) := by
  induction cs with
  | nil => exact (Except.ok.inj h).symm
  | cons c cs ih =>
    rw [firstLook] at h
    rcases hlook : c.look t bundle with e | _ | stream
    · rw [hlook] at h
      cases h
    · rw [hlook] at h
      rw [List.findSome?_cons, stream?_of_look hlook]
      exact ih h
    · rw [hlook] at h
      rw [List.findSome?_cons, stream?_of_look hlook]
      exact (Except.ok.inj h).symm

/-- Only the places that are reached decide which one is first to open as a file. -/
theorem findSome?_congr
    (h : ∀ c, Reached t bundle cs c → c.stream? t' bundle' = c.stream? t bundle) :
    cs.findSome? (stream? t' bundle') = cs.findSome? (stream? t bundle) := by
  induction cs with
  | nil => rw [List.findSome?_nil, List.findSome?_nil]
  | cons c cs ih =>
    rw [List.findSome?_cons, List.findSome?_cons, h c reached_head]
    rcases hstream : c.stream? t bundle with _ | stream
    · exact ih fun d hd => h d (hd.cons hstream)
    · rfl

/-- Only the places that are reached decide what looks come to. -/
theorem firstLook_congr (h : ∀ c, Reached t bundle cs c → c.look t' bundle' = c.look t bundle) :
    firstLook t' bundle' cs = firstLook t bundle cs := by
  induction cs with
  | nil => rfl
  | cons c cs ih =>
    rw [firstLook, firstLook, h c reached_head]
    rcases hlook : c.look t bundle with e | _ | stream
    · rfl
    · exact ih fun d hd => h d (hd.cons (stream?_of_look hlook))
    · rfl

/-- Looks fail if one of them does and those before it find nothing, and with its failure. -/
theorem firstLook_eq_error_iff : firstLook t bundle cs = .error e ↔ ∃ earlier c later,
    cs = earlier ++ c :: later ∧ (∀ x ∈ earlier, x.look t bundle = .ok none) ∧
      c.look t bundle = .error e := by
  constructor
  · intro h
    induction cs with
    | nil => cases h
    | cons c cs ih =>
      rw [firstLook] at h
      rcases hlook : c.look t bundle with e' | _ | stream
      · rw [hlook] at h
        exact ⟨[], c, cs, rfl, fun x hx => absurd hx List.not_mem_nil, hlook.trans h⟩
      · rw [hlook] at h
        obtain ⟨earlier, d, later, rfl, hearlier, hd⟩ := ih h
        exact ⟨c :: earlier, d, later, rfl, List.forall_mem_cons.mpr ⟨hlook, hearlier⟩, hd⟩
      · rw [hlook] at h
        cases h
  · rintro ⟨earlier, c, later, rfl, hearlier, hc⟩
    induction earlier with
    | nil =>
      rw [List.nil_append, firstLook, hc]
    | cons x earlier ih =>
      obtain ⟨hx, hearlier⟩ := List.forall_mem_cons.mp hearlier
      rw [List.cons_append, firstLook, hx]
      exact ih hearlier

end Candidate

namespace Search

variable (s : Search) (t : FileTree) (name hint : String)

/-- A search with other resources in its bundle. -/
def withResources (files : List (List String × Resource)) : Search :=
  { s with bundle := s.bundle.map (Bundle.withResources files) }

/-- Other resources in a bundle do not change the places that are looked at. -/
theorem candidates_withResources (files : List (List String × Resource)) :
    (s.withResources files).candidates name hint = s.candidates name hint := by
  have hunder : ∀ texts, (s.withResources files).bundle.map (Bundle.under texts) =
      s.bundle.map (Bundle.under texts) := by
    intro texts
    rw [withResources, Option.map_map]
    refine Option.map_congr fun b _ => ?_
    cases b <;> rfl
  unfold candidates
  rw [hunder, hunder, hunder]
  rfl

/-- A search comes to what the first look at its places finds, whatever was done before. -/
theorem run_locate (st : Store) : (s.locate t name hint).run.run st =
    (Candidate.firstLook t s.bundle (s.candidates name hint),
      { st with log := st.log ++ s.told t name hint }) := by
  rw [s.tells_locate, found_eq_firstLook]

/-- The paths among the places are those of a hint that starts at the root, alone, or else of the
directories that are not empty. -/
theorem file_mem_candidates {p : Path} (h : .file p ∈ s.candidates name hint) :
    if isAbsoluteHint hint then p = (Path.ofText hint).join (.ofText name)
    else ∃ dir ∈ s.dirs, dir ≠ "" ∧
      p = ((Path.ofText dir).join (.ofText hint)).join (.ofText name) := by
  -- What is under a bundle is no path of the file system.
  have hunder : ∀ texts, .file p ∉ (s.bundle.map (Bundle.under texts)).toList := by
    intro texts hmem
    rcases hbundle : s.bundle with _ | base | held <;> simp [hbundle, Bundle.under] at hmem
  unfold candidates at h
  rcases List.mem_append.mp h with h | h
  · rcases List.mem_append.mp h with h | h
    · by_cases hhint : isAbsoluteHint hint = true
      · rw [if_pos hhint] at h ⊢
        exact Candidate.file.inj (List.mem_singleton.mp h)
      · rw [if_neg hhint] at h ⊢
        obtain ⟨dir, hdir, h⟩ := List.mem_flatMap.mp h
        by_cases hempty : dir.isEmpty = true
        · rw [if_pos hempty] at h
          split at h
          · exact absurd h List.not_mem_nil
          · exact absurd h (hunder _)
        · rw [if_neg hempty] at h
          exact ⟨dir, hdir, by simpa using hempty, Candidate.file.inj (List.mem_singleton.mp h)⟩
    · exact absurd h (hunder _)
  · exact absurd h (hunder _)

/-- A search that does not fail finds the first of its places that opens as a file, and nothing if
none does. No other place matters: two file systems, with the resources of the bundle, that agree at
the places up to the first hit give the same answer, and if they agree on the looks there, neither
search fails. The paths among the places are those of a hint that starts at the root or of the
directories that are not empty, so that the folder where relative paths start is not looked into for
an empty one. -/
theorem locate_first_hit {found : Option Stream} {st st₁ : Store}
    (h : (s.locate t name hint).run.run st = (.ok found, st₁)) :
    found = (s.candidates name hint).findSome? (Candidate.stream? t s.bundle) ∧
    (∀ t' files, (∀ c, Candidate.Reached t s.bundle (s.candidates name hint) c →
        c.stream? t' (s.withResources files).bundle = c.stream? t s.bundle) →
      ∀ found' st' st₁', ((s.withResources files).locate t' name hint).run.run st' =
        (.ok found', st₁') → found' = found) ∧
    (∀ t' files, (∀ c, Candidate.Reached t s.bundle (s.candidates name hint) c →
        c.look t' (s.withResources files).bundle = c.look t s.bundle) →
      ∀ st', ∃ st₁', ((s.withResources files).locate t' name hint).run.run st' =
        (.ok found, st₁')) ∧
    ∀ p, .file p ∈ s.candidates name hint →
      if isAbsoluteHint hint then p = (Path.ofText hint).join (.ofText name)
      else ∃ dir ∈ s.dirs, dir ≠ "" ∧
        p = ((Path.ofText dir).join (.ofText hint)).join (.ofText name) := by
  -- A search is the first look at its candidates that finds or fails, and so depends on nothing
  -- else.
  rw [run_locate] at h
  have hlook : Candidate.firstLook t s.bundle (s.candidates name hint) = .ok found :=
    congrArg Prod.fst h
  have hfound := Candidate.eq_findSome?_of_firstLook hlook
  refine ⟨hfound, ?_, ?_, fun p => s.file_mem_candidates name hint⟩
  · intro t' files hagree found' st' st₁' h'
    rw [run_locate, candidates_withResources] at h'
    rw [hfound, Candidate.eq_findSome?_of_firstLook (congrArg Prod.fst h')]
    exact Candidate.findSome?_congr hagree
  · intro t' files hagree st'
    rw [run_locate, candidates_withResources, Candidate.firstLook_congr hagree, hlook]
    exact ⟨_, rfl⟩

end Search

namespace EmptyEntry

/-- An empty directory in front of one with a name, and a bundle. -/
def search : Search := ⟨["", "/c"], some (.folder ⟨1, ["b"]⟩)⟩

/-- The text `a: 1`. -/
def text : List UInt8 := [97, 58, 32, 49]

/-- The text `a: 2`. -/
def otherText : List UInt8 := [97, 58, 32, 50]

/-- A file under a hint in the bundle only. -/
def bundled : FileTree :=
  ⟨[(["b"], .folder), (["b", "h"], .folder), (["b", "h", "x.yml"], .file text)], ["w"]⟩

/-- The same, with such a file in the other directory and where relative paths start. -/
def everywhere : FileTree := { bundled with entries := bundled.entries ++
  [(["c"], .folder), (["c", "h"], .folder), (["c", "h", "x.yml"], .file otherText),
    (["w", "h"], .folder), (["w", "h", "x.yml"], .file otherText)] }

/-- The file in the bundle is found for the empty directory, whatever the others hold. -/
theorem bundled_file_found : ∃ st st',
    (search.locate everywhere "x.yml" "h/").run.run .empty =
      (.ok (some ⟨some "/b/h/x.yml", .ok text⟩), st) ∧
    (search.locate bundled "x.yml" "h/").run.run .empty =
      (.ok (some ⟨some "/b/h/x.yml", .ok text⟩), st') := by
  have hrun : (search.locate everywhere "x.yml" "h/").run.run .empty =
      (.ok (some ⟨some "/b/h/x.yml", .ok text⟩), _) := rfl
  obtain ⟨-, -, hsame, -⟩ := search.locate_first_hit everywhere "x.yml" "h/" hrun
  have hhead : Candidate.stream? everywhere search.bundle (.bundled ⟨1, ["b", "h", "x.yml"]⟩) =
      some ⟨some "/b/h/x.yml", .ok text⟩ := rfl
  obtain ⟨st', hrun'⟩ := hsame bundled [] (fun c hc => by
    obtain rfl := hc.eq_head hhead
    rfl) .empty
  exact ⟨_, st', hrun, hrun'⟩

end EmptyEntry
end Stratum
