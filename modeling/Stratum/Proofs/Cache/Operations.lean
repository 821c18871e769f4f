import Mathlib.Tactic.SplitIfs
import Mathlib.Tactic.Tauto
import Stratum.Cache.Basic

/-!
# What the operations of a cache do

One or two equations for each operation, so that nothing else needs to look inside it: what a clear
leaves, when a refresh clears, which of three things a look-up gives, and what a landing changes.
-/

namespace Stratum.Cache

variable {K V : Type}

/-! ## Clearing -/

/-- A clear drops the entries and flights and starts a generation; the deadline moves if there is a
next midnight. -/
theorem clear_fst (c : Cache K V) (now : Moment) :
    (c.clear now).1 = { c with
      entries := [], flights := [], generation := c.generation + 1
      deadline := now.nextMidnight?.or c.deadline } := by
  unfold clear
  cases now.nextMidnight? <;> rfl

/-- A clear succeeds if there is a next midnight. -/
theorem clear_snd {c : Cache K V} {now midnight : Moment} (h : now.nextMidnight? = some midnight) :
    (c.clear now).2 = none := by
  simp only [clear, h]

/-- A refresh at which the cache is not expired changes nothing. -/
theorem refresh_fst_of_ne {c : Cache K V} {now : Moment} (h : c.isExpired now ≠ .ok true) :
    (c.refresh now).1 = c := by
  unfold refresh
  split
  · rfl
  · rfl
  · contradiction

/-- A refresh of an expired cache clears it. -/
theorem refresh_fst {c : Cache K V} {now : Moment} (h : c.isExpired now = .ok true) :
    (c.refresh now).1 = (c.clear now).1 := by
  simp only [refresh, h]
  split <;> simp_all

variable [DecidableEq K]

/-! ## Looking up -/

/-- What is found in a list is in it. -/
theorem mem_of_lookup {W : Type} {ps : List (K × W)} {k : K} {w : W}
    (h : ps.lookup k = some w) : (k, w) ∈ ps := by
  obtain ⟨l₁, l₂, rfl, -⟩ := List.lookup_eq_some_iff.mp h
  simp

/-- What is in a list is found there under its key, or something else is. -/
theorem lookup_ne_none_of_mem {W : Type} {ps : List (K × W)} {k : K} {w : W}
    (h : (k, w) ∈ ps) : ps.lookup k ≠ none := by
  intro hnone
  have hne := List.lookup_eq_none_iff.mp hnone _ h
  simp at hne

/-- A look-up finds an entry, or a flight to join, or starts a flight. -/
theorem lookup_cases (c : Cache K V) (k : K) :
    (∃ v, c.entries.lookup k = some v ∧ c.lookup k = (.hit v, c)) ∨
      (∃ f, c.entries.lookup k = none ∧ c.flights.lookup k = some f ∧
        c.lookup k = (.joined f, c)) ∨
      (c.entries.lookup k = none ∧ c.flights.lookup k = none ∧
        c.lookup k = (.started c.begun c.generation,
          { c with flights := (k, c.begun) :: c.flights, begun := c.begun + 1 })) := by
  unfold lookup
  cases he : c.entries.lookup k with
  | some v => exact .inl ⟨v, rfl, rfl⟩
  | none =>
    cases hf : c.flights.lookup k with
    | some f => exact .inr (.inl ⟨f, rfl, rfl, rfl⟩)
    | none => exact .inr (.inr ⟨rfl, rfl, rfl⟩)

/-- A look-up is a hit if there is an entry. -/
theorem lookup_eq_hit {c : Cache K V} {k : K} {v : V} :
    (c.lookup k).1 = .hit v ↔ c.entries.lookup k = some v := by
  unfold lookup
  cases c.entries.lookup k <;> cases c.flights.lookup k <;> simp

/-- A look-up joins a flight if there is one and no entry. -/
theorem lookup_eq_joined {c : Cache K V} {k : K} {f : Nat} :
    (c.lookup k).1 = .joined f ↔ c.entries.lookup k = none ∧ c.flights.lookup k = some f := by
  unfold lookup
  cases c.entries.lookup k <;> cases c.flights.lookup k <;> simp

/-- A look-up starts the next flight, in the current generation, if there is neither an entry nor a
flight. -/
theorem lookup_eq_started {c : Cache K V} {k : K} {f g : Nat} :
    (c.lookup k).1 = .started f g ↔
      c.entries.lookup k = none ∧ c.flights.lookup k = none ∧ f = c.begun ∧ g = c.generation := by
  unfold lookup
  cases c.entries.lookup k <;> cases c.flights.lookup k <;> simp [eq_comm]

/-- A look-up that starts a flight adds it. -/
theorem lookup_snd_of_started {c : Cache K V} {k : K} {f g : Nat}
    (h : (c.lookup k).1 = .started f g) :
    (c.lookup k).2 = { c with flights := (k, c.begun) :: c.flights, begun := c.begun + 1 } := by
  obtain ⟨hentries, hflights, -⟩ := lookup_eq_started.mp h
  simp only [lookup, hentries, hflights]

/-- A look-up that starts no flight changes nothing. -/
theorem lookup_snd_of_ne {c : Cache K V} {k : K} (h : ∀ f g, (c.lookup k).1 ≠ .started f g) :
    (c.lookup k).2 = c := by
  rcases c.lookup_cases k with ⟨v, -, heq⟩ | ⟨f, -, -, heq⟩ | ⟨-, -, heq⟩
  · rw [heq]
  · rw [heq]
  · exact absurd (by rw [heq]) (h c.begun c.generation)

/-! ## Landing -/

/-- What is found under a key in a list with one more pair in front. -/
theorem lookup_cons_ite {W : Type} (j k : K) (w : W) (ps : List (K × W)) :
    ((k, w) :: ps).lookup j = if j = k then some w else ps.lookup j := by
  by_cases h : j = k
  · subst h
    simp
  · simp [List.lookup_cons, h, beq_false_of_ne]

/-- What is found under a key after a value was put. -/
theorem lookup_putEntry (k j : K) (v : V) (es : List (K × V)) :
    (putEntry k v es).lookup j = if j = k then some v else es.lookup j := by
  induction es with
  | nil => exact lookup_cons_ite j k v []
  | cons e es ih =>
    obtain ⟨i, w⟩ := e
    unfold putEntry
    by_cases hi : i = k
    · subst hi
      rw [if_pos rfl, lookup_cons_ite, lookup_cons_ite]
      split_ifs <;> rfl
    · rw [if_neg hi, lookup_cons_ite, lookup_cons_ite, ih]
      split_ifs with h1 h2
      · exact absurd (h1 ▸ h2) hi
      · rfl
      · rfl
      · rfl

/-- An entry after a value was put is the new one or one from before. -/
theorem mem_putEntry {k j : K} {v w : V} {es : List (K × V)} (h : (j, w) ∈ putEntry k v es) :
    (j = k ∧ w = v) ∨ (j, w) ∈ es := by
  induction es with
  | nil => simpa [putEntry] using h
  | cons e es ih =>
    obtain ⟨i, u⟩ := e
    unfold putEntry at h
    split_ifs at h with hi
    · rcases List.mem_cons.mp h with h | h
      · obtain ⟨rfl, rfl⟩ := Prod.mk.inj h
        exact .inl ⟨hi, rfl⟩
      · exact .inr (List.mem_cons_of_mem _ h)
    · rcases List.mem_cons.mp h with h | h
      · exact .inr (h ▸ List.mem_cons_self)
      · exact (ih h).imp_right (List.mem_cons_of_mem _)

/-- A landing takes its own flight away and no other. -/
theorem mem_flights_land {c : Cache K V} {k j : K} {flight generation f : Nat} {value : Option V} :
    (j, f) ∈ (c.land k flight generation value).flights ↔
      (j, f) ∈ c.flights ∧ ¬(j = k ∧ f = flight) := by
  simp only [land, List.mem_filter, Bool.not_eq_true', Bool.and_eq_false_iff, beq_eq_false_iff_ne]
  tauto

/-- A landing of the current generation puts its value into the entries. -/
theorem entries_land {c : Cache K V} {k : K} {flight generation : Nat} {v : V}
    (h : generation = c.generation) :
    (c.land k flight generation (some v)).entries = putEntry k v c.entries := if_pos h

/-- A landing leaves the entries alone, or has a value and is of the current generation. -/
theorem entries_land_cases (c : Cache K V) (k : K) (flight generation : Nat) (value : Option V) :
    (c.land k flight generation value).entries = c.entries ∨
      ∃ v, value = some v ∧ generation = c.generation := by
  cases value with
  | none => exact .inl rfl
  | some v =>
    by_cases h : generation = c.generation
    · exact .inr ⟨v, rfl, h⟩
    · exact .inl (if_neg h)

end Stratum.Cache
