import Stratum.Proofs.Cache.Operations

/-!
# A getter of a cache in one step

In a run without other threads a getter refreshes the cache, looks its key up, and lands at once
what is found if nothing is there. `Cache.fetch` is that step, with what is found given. No
operation looks at the values (`Cache.refresh_map`, `Cache.lookup_map`, `Cache.land_map`), and
caches that agree on some keys go on doing so (`Cache.AgreeOn.fetch`).
-/

namespace Stratum

variable {K V W : Type}

/-- What a look at a key gives, the value replaced. -/
def Lookup.map (f : V → W) : Lookup V → Lookup W
  | .hit v => .hit (f v)
  | .joined flight => .joined flight
  | .started flight generation => .started flight generation

namespace Cache

/-- The cache with each value replaced. -/
def map (f : V → W) (c : Cache K V) : Cache K W :=
  ⟨c.entries.map fun (k, v) => (k, f v), c.flights, c.begun, c.generation, c.deadline⟩

/-- Values that are replaced by the same ones. -/
theorem map_congr {f g : V → W} {c : Cache K V} (h : ∀ e ∈ c.entries, f e.2 = g e.2) :
    c.map f = c.map g := by
  unfold map
  congr 1
  exact List.map_congr_left fun e he => congrArg (Prod.mk e.1) (h e he)

/-- A clear does not look at the values. -/
theorem clear_map (f : V → W) (c : Cache K V) (now : Moment) :
    (c.map f).clear now = ((c.clear now).1.map f, (c.clear now).2) := by
  unfold clear
  rcases now.nextMidnight? with _ | midnight <;> rfl

/-- Neither does a refresh. -/
theorem refresh_map (f : V → W) (c : Cache K V) (now : Moment) :
    (c.map f).refresh now = ((c.refresh now).1.map f, (c.refresh now).2) := by
  have hexpired : (c.map f).isExpired now = c.isExpired now := rfl
  unfold refresh
  rw [hexpired, clear_map]
  rcases c.isExpired now with fault | _ | _
  · rfl
  · rfl
  · dsimp only
    rcases c.clear now with ⟨c, _ | fault⟩ <;> rfl

variable [DecidableEq K]

/-- What stands under a key after each value is replaced. -/
theorem lookup_map_entries (f : V → W) (k : K) (es : List (K × V)) :
    (es.map fun (k, v) => (k, f v)).lookup k = (es.lookup k).map f := by
  induction es with
  | nil => rfl
  | cons e es ih =>
    obtain ⟨j, v⟩ := e
    rw [List.map_cons, lookup_cons_ite, lookup_cons_ite, ih]
    split_ifs <;> rfl

/-- A look-up replaces the value that it hits. -/
theorem lookup_map (f : V → W) (c : Cache K V) (k : K) :
    (c.map f).lookup k = ((c.lookup k).1.map f, (c.lookup k).2.map f) := by
  have hentry : (c.map f).entries.lookup k = (c.entries.lookup k).map f :=
    lookup_map_entries f k c.entries
  have hflights : (c.map f).flights = c.flights := rfl
  unfold lookup
  rw [hentry, hflights]
  rcases c.entries.lookup k with _ | v
  · dsimp only [Option.map_none]
    rcases c.flights.lookup k with _ | flight <;> rfl
  · rfl

/-- A put of a replaced value. -/
theorem putEntry_map (f : V → W) (k : K) (v : V) (es : List (K × V)) :
    putEntry k (f v) (es.map fun (k, v) => (k, f v)) =
      (putEntry k v es).map fun (k, v) => (k, f v) := by
  induction es with
  | nil => rfl
  | cons e es ih =>
    obtain ⟨j, w⟩ := e
    rw [List.map_cons]
    dsimp only
    rw [putEntry, putEntry, ih]
    split <;> rfl

/-- A landing of a replaced value. -/
theorem land_map (f : V → W) (c : Cache K V) (k : K) (flight generation : Nat)
    (value : Option V) :
    (c.map f).land k flight generation (value.map f) =
      (c.land k flight generation value).map f := by
  have hgeneration : (c.map f).generation = c.generation := rfl
  rcases value with _ | v
  · rfl
  · unfold land
    dsimp only [Option.map_some]
    rw [hgeneration]
    by_cases h : generation = c.generation
    · rw [if_pos h, if_pos h]
      exact congrArg (fun es => (⟨es, _, _, _, _⟩ : Cache K W)) (putEntry_map f k v c.entries)
    · rw [if_neg h, if_neg h]
      rfl

/-! ## Getters -/

/-- The answer under a key with the lines that are told, and the cache after it: the value that is
there, or else what is found. -/
def answer (k : K) (find : Except Failure (Option V) × List Line) (c : Cache K V) :
    (Except Failure (Option V) × List Line) × Cache K V :=
  match c.lookup k with
  | (.hit v, c) => ((.ok (some v), []), c)
  | (.joined _, c) => ((.error .blocked, []), c)
  | (.started flight generation, c) => (find, c.land k flight generation find.1.toOption.join)

/-- The answer of a getter with the lines that are told, and the cache after it. -/
def fetch (now : Moment) (k : K) (find : Except Failure (Option V) × List Line) (c : Cache K V) :
    (Except Failure (Option V) × List Line) × Cache K V :=
  match c.refresh now with
  | (c, .error fault) => ((.error fault.failure, []), c)
  | (c, .ok cleared) =>
    let ((found, lines), c) := c.answer k find
    ((found, (if cleared then [refreshLine] else []) ++ lines), c)

/-- Without flights, the answer under a key is the value that is there, or else what is found. -/
theorem answer_fst {c : Cache K V} (hidle : c.flights = []) (k : K)
    (find : Except Failure (Option V) × List Line) :
    (c.answer k find).1 = match c.entries.lookup k with
      | some v => (.ok (some v), [])
      | none => find := by
  unfold answer
  rcases c.lookup_cases k with ⟨v, hentry, heq⟩ | ⟨f, -, hflight, -⟩ | ⟨hentry, -, heq⟩
  · rw [heq, hentry]
  · rw [hidle] at hflight
    cases hflight
  · rw [heq, hentry]

/-- Without flights, the cache after an answer has none either, and the value that was there or was
found stands under its key. -/
theorem answer_snd {c : Cache K V} (hidle : c.flights = []) (k : K)
    (find : Except Failure (Option V) × List Line) :
    (c.answer k find).2.flights = [] ∧ (c.answer k find).2.deadline = c.deadline ∧
      (c.answer k find).2.generation = c.generation ∧
      ∀ j, (c.answer k find).2.entries.lookup j = if j = k then
        (c.entries.lookup k).or find.1.toOption.join else c.entries.lookup j := by
  unfold answer
  rcases c.lookup_cases k with ⟨v, hentry, heq⟩ | ⟨f, -, hflight, -⟩ | ⟨hentry, -, heq⟩
  · rw [heq]
    refine ⟨hidle, rfl, rfl, fun j => ?_⟩
    split_ifs with h
    · rw [h, hentry]
      rfl
    · rfl
  · rw [hidle] at hflight
    cases hflight
  · rw [heq, hentry]
    refine ⟨by simp [land, hidle], rfl, rfl, fun j => ?_⟩
    rcases find.1.toOption.join with _ | v
    · split_ifs with h
      · exact h ▸ hentry
      · rfl
    · rw [entries_land rfl, lookup_putEntry]
      rfl

/-! ## Agreement -/

/-- What somebody notices of an answer with lines, who listens to some of the lines only. -/
def heard {α : Type} (listens : Line → Bool) (answer : Except Failure α × List Line) :
    Except Failure α × List Line := (answer.1, answer.2.filter listens)

/-- Whoever listens to all lines notices everything. -/
theorem heard_all {α : Type} (answer : Except Failure α × List Line) :
    heard (fun _ => true) answer = answer :=
  Prod.ext rfl (List.filter_eq_self.mpr fun _ _ => rfl)

/-- Two caches without flights have the same deadline, and the same values under those keys that
count in the generation of the first. -/
structure AgreeOn (counts : Nat → K → Prop) (c d : Cache K V) : Prop where
  idle : c.flights = [] ∧ d.flights = []
  deadline : c.deadline = d.deadline
  entries : ∀ k, counts c.generation k → c.entries.lookup k = d.entries.lookup k

namespace AgreeOn

variable {counts : Nat → K → Prop} {c d : Cache K V} {p : Line → Bool}

/-- New caches agree on all keys. -/
theorem empty (counts : Nat → K → Prop) : AgreeOn (V := V) counts .empty .empty :=
  ⟨⟨rfl, rfl⟩, rfl, fun _ _ => rfl⟩

/-- Caches agree on the keys on which both agree with a third one. -/
theorem trans {e : Cache K V} {counts' counts'' : Nat → K → Prop} (h : AgreeOn counts c d)
    (h' : AgreeOn counts' d e)
    (hcounts : ∀ k, counts'' c.generation k → counts c.generation k ∧ counts' d.generation k) :
    AgreeOn counts'' c e :=
  ⟨⟨h.idle.1, h'.idle.2⟩, h.deadline.trans h'.deadline, fun k hk =>
    (h.entries k (hcounts k hk).1).trans (h'.entries k (hcounts k hk).2)⟩

/-- Cleared caches agree on all keys. -/
theorem clear (h : AgreeOn counts c d) (now : Moment) :
    (c.clear now).2 = (d.clear now).2 ∧ AgreeOn counts (c.clear now).1 (d.clear now).1 := by
  constructor
  · unfold Cache.clear
    rcases now.nextMidnight? with _ | midnight <;> rfl
  · rw [clear_fst, clear_fst]
    exact ⟨⟨rfl, rfl⟩, congrArg now.nextMidnight?.or h.deadline, fun _ _ => rfl⟩

/-- Refreshed caches agree. -/
theorem refresh (h : AgreeOn counts c d) (now : Moment) :
    (c.refresh now).2 = (d.refresh now).2 ∧ AgreeOn counts (c.refresh now).1 (d.refresh now).1 := by
  have hexpired : c.isExpired now = d.isExpired now := by
    unfold isExpired
    rw [h.deadline]
  obtain ⟨hfault, hclear⟩ := h.clear now
  unfold Cache.refresh
  rw [← hexpired]
  rcases c.isExpired now with fault | _ | _
  · exact ⟨rfl, h⟩
  · exact ⟨rfl, h⟩
  · dsimp only
    rcases hc : c.clear now with ⟨c', fault⟩
    rcases hd : d.clear now with ⟨d', fault'⟩
    rw [hc, hd] at hfault hclear
    obtain rfl : fault = fault' := hfault
    rcases fault with _ | fault
    · exact ⟨rfl, hclear⟩
    · exact ⟨rfl, hclear⟩

/-- Caches that agree answer the same under a key that counts if the same is found, and agree
afterwards. -/
theorem answer (h : AgreeOn counts c d) (k : K) {find find' : Except Failure (Option V) × List Line}
    (hfind : counts c.generation k → heard p find = heard p find') :
    (counts c.generation k →
      heard p (c.answer k find).1 = heard p (d.answer k find').1) ∧
    AgreeOn counts (c.answer k find).2 (d.answer k find').2 := by
  obtain ⟨hflights, hdeadline, hgeneration, hentries⟩ := answer_snd h.idle.1 k find
  obtain ⟨hflights', hdeadline', -, hentries'⟩ := answer_snd h.idle.2 k find'
  constructor
  · intro hcounts
    rw [answer_fst h.idle.1, answer_fst h.idle.2, h.entries k hcounts]
    rcases d.entries.lookup k with _ | v
    · exact hfind hcounts
    · rfl
  · refine ⟨⟨hflights, hflights'⟩, hdeadline.trans (h.deadline.trans hdeadline'.symm), ?_⟩
    intro j hcounts
    rw [hgeneration] at hcounts
    rw [hentries, hentries']
    split_ifs with hj
    · subst hj
      have hfound : find.1 = find'.1 := (Prod.mk.inj (hfind hcounts)).1
      rw [h.entries j hcounts, hfound]
    · exact h.entries j hcounts

/-- The cache after a getter is of the generation that a refresh leaves. -/
theorem generation_fetch (h : AgreeOn counts c d) (now : Moment) (k : K)
    (find : Except Failure (Option V) × List Line) :
    (c.fetch now k find).2.generation = (c.refresh now).1.generation := by
  have hrefresh := (h.refresh now).2.idle.1
  unfold fetch
  rcases hc : c.refresh now with ⟨c', fault | cleared⟩
  · rfl
  · rw [hc] at hrefresh
    exact (answer_snd hrefresh k find).2.2.1

/-- Caches that agree give a getter the same answer under a key that counts afterwards, if the same
is found, and agree afterwards. -/
theorem fetch (h : AgreeOn counts c d) (now : Moment) (k : K)
    {find find' : Except Failure (Option V) × List Line}
    (hfind : counts (c.fetch now k find).2.generation k →
      heard p find = heard p find') :
    (counts (c.fetch now k find).2.generation k →
      heard p (c.fetch now k find).1 = heard p (d.fetch now k find').1) ∧
    AgreeOn counts (c.fetch now k find).2 (d.fetch now k find').2 := by
  rw [h.generation_fetch] at hfind ⊢
  obtain ⟨hcleared, hagree⟩ := h.refresh now
  unfold Cache.fetch
  rcases hc : c.refresh now with ⟨c', cleared⟩
  rcases hd : d.refresh now with ⟨d', cleared'⟩
  rw [hc, hd] at hcleared hagree
  rw [hc] at hfind
  dsimp only at hfind hagree
  obtain rfl : cleared = cleared' := hcleared
  rcases cleared with fault | cleared
  · exact ⟨fun _ => rfl, hagree⟩
  · obtain ⟨hanswer, hagree'⟩ := hagree.answer k hfind
    refine ⟨fun hcounts => ?_, hagree'⟩
    have heq := hanswer hcounts
    unfold heard at heq ⊢
    obtain ⟨hfound, hlines⟩ := Prod.mk.inj heq
    exact Prod.ext hfound (by simp only [List.filter_append, hlines])

end AgreeOn

end Cache
end Stratum
