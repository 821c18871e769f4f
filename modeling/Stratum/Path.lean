/-!
# Paths

Paths of files, as they are written and joined. Empty parts and single points drop out, two points
stay, and a path that starts at the root replaces what it is joined to. Two slashes at the start are
a root of their own.
-/

namespace Stratum

/-- A path: how many slashes its root has, none for a relative one, and its parts. -/
structure Path where
  slashes : Nat
  parts : List String
  deriving DecidableEq, Repr

namespace Path

/-- The slashes of a root that starts with so many. -/
def rootOf (n : Nat) : Nat := if n ≤ 2 then n else 1

/-- A part that is not dropped. -/
def isPart (part : List Char) : Bool := !part.isEmpty && part != ['.']

/-- The path of a text. -/
def ofText (s : String) : Path :=
  let cs := s.toList
  let slashes := (cs.takeWhile (· == '/')).length
  ⟨rootOf slashes, ((cs.splitOn '/').filter isPart).map String.ofList⟩

/-- Whether a path starts at the root. -/
def isAbsolute (p : Path) : Bool := p.slashes != 0

/-- A path behind another one. -/
def join (p q : Path) : Path := if q.isAbsolute then q else ⟨p.slashes, p.parts ++ q.parts⟩

/-- The text of a path; a point if there is nothing else to write. -/
def text (p : Path) : String :=
  let s := String.ofList (List.replicate p.slashes '/') ++ "/".intercalate p.parts
  if s.isEmpty then "." else s

end Path
end Stratum
