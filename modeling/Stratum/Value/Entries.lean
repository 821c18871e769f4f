import Stratum.Value.Atom

/-!
# Entries

The entries of a mapping, in the order in which their keys first came. Putting a value under a key
that is there leaves the key's place and spelling alone; a new key goes to the end.
-/

namespace Stratum

/-- Keys and values of a mapping, in order. -/
abbrev Entries (α : Type) := List (Atom × α)

namespace Entries

variable {α : Type}

/-- The value under a key. -/
def find? (k : Atom) : Entries α → Option α
  | [] => none
  | (a, v) :: rest => if a.sameKey k then some v else find? k rest

/-- Whether there is a value under a key. -/
def hasKey (k : Atom) (es : Entries α) : Bool := (es.find? k).isSome

/-- The entries with a value put under a key. -/
def put (k : Atom) (v : α) : Entries α → Entries α
  | [] => [(k, v)]
  | (a, w) :: rest => if a.sameKey k then (a, v) :: rest else (a, w) :: put k v rest

/-- The entries built by putting each pair in turn. -/
def ofPairs (pairs : List (Atom × α)) : Entries α := pairs.foldl (fun es (k, v) => es.put k v) []

/-- The keys, in order. -/
def keys (es : Entries α) : List Atom := es.map Prod.fst

/-- The value put under a key is found under it, however the key is spelled. -/
theorem find?_put_of_sameKey {j k : Atom} (h : j.form = k.form) (v : α) (es : Entries α) :
    (es.put k v).find? j = some v := by
  induction es with
  | nil => simp [put, find?, h]
  | cons e es ih =>
    obtain ⟨a, w⟩ := e
    by_cases hk : a.form = k.form
    · simp [put, find?, hk, h]
    · simp [put, find?, hk, h, ih]

/-- A put under another key changes nothing. -/
theorem find?_put_of_ne {j k : Atom} (h : j.form ≠ k.form) (v : α) (es : Entries α) :
    (es.put k v).find? j = es.find? j := by
  induction es with
  | nil => simp [put, find?, Ne.symm h]
  | cons e es ih =>
    obtain ⟨a, w⟩ := e
    by_cases hk : a.form = k.form
    · simp [put, find?, hk, Ne.symm h]
    · have step : put k v ((a, w) :: es) = (a, w) :: put k v es := by simp [put, hk]
      simp [step, find?, ih]

/-- Putting under a key that is there keeps the keys. -/
theorem keys_put_of_hasKey {k : Atom} {es : Entries α} (h : es.hasKey k = true) (v : α) :
    (es.put k v).keys = es.keys := by
  induction es with
  | nil => simp [hasKey, find?] at h
  | cons e es ih =>
    obtain ⟨a, w⟩ := e
    by_cases hk : a.form = k.form
    · simp [put, keys, hk]
    · have h' : hasKey k es = true := by simpa [hasKey, find?, hk] using h
      have := ih h'
      simp only [keys] at this
      simp [put, keys, hk, this]

/-- Putting under a new key adds it at the end. -/
theorem put_of_not_hasKey {k : Atom} {es : Entries α} (h : es.hasKey k = false) (v : α) :
    es.put k v = es ++ [(k, v)] := by
  induction es with
  | nil => rfl
  | cons e es ih =>
    obtain ⟨a, w⟩ := e
    by_cases hk : a.form = k.form
    · simp [hasKey, find?, hk] at h
    · have h' : hasKey k es = false := by simpa [hasKey, find?, hk] using h
      simp [put, hk, ih h']

end Entries
end Stratum
