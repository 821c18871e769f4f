import Stratum.Value.Basic

/-!
# Merging

One mapping laid over another. Where both hold a mapping under a key, the two are merged in turn;
anywhere else the value of the upper mapping replaces what was there. Keys keep the place and
spelling of the lower mapping, and new ones follow in the order of the upper.
-/

namespace Stratum.Value

mutual

/-- What stands under a key after `upper` is laid over what stood there. -/
def mergeAt (lower : Option Value) : (upper : Value) → Value
  | .map es =>
    match lower.bind entries? with
    | some base => .map (mergeEntries base es)
    | none => .map es
  | v => v

/-- The entries of a mapping with those of another laid over them, one by one. -/
def mergeEntries (lower : Entries Value) : (upper : List (Atom × Value)) → Entries Value
  | [] => lower
  | (k, v) :: rest => mergeEntries (lower.put k (mergeAt (lower.find? k) v)) rest

end

/-- Nothing laid over a mapping leaves it as it is. -/
@[simp] theorem mergeEntries_nil (lower : Entries Value) : mergeEntries lower [] = lower := rfl

/-- Two mappings are merged entry by entry. -/
theorem mergeAt_map (base es : Entries Value) :
    mergeAt (some (.map base)) (.map es) = .map (mergeEntries base es) := rfl

end Stratum.Value
