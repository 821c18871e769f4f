import Stratum.Proofs.Heap.Behind
import Stratum.Yaml.Load

/-!
# What loading a document makes

Loading a document does the same whatever cells are there before, but for the addresses
(`Yaml.load_behind`), and what it makes leads to cells that it makes, none of which is an object of
a host (`Yaml.isPlain_load`).
-/

namespace Stratum

/-! ## Answers of binds -/

/-- A bind that comes to an answer has one to go on with. -/
theorem bind_eq_ok {ε α β : Type} {x : Except ε α} {f : α → Except ε β} {b : β}
    (h : (x >>= f) = .ok b) : ∃ a, x = .ok a ∧ f a = .ok b := by
  rcases x with e | a
  · cases h
  · exact ⟨a, rfl, h⟩

/-! ## Plain heaps -/

/-- A cell that is no object of a host. -/
def Cell.IsPlain : Cell → Prop
  | .object _ _ => False
  | _ => True

namespace Heap

/-- All cells lead to cells that are there, and none is an object of a host. -/
structure IsPlain (h : Heap) : Prop where
  domain : h.IsDomain (Set.Iio h.cells.size)
  plain : ∀ addr c, h.get? addr = some c → c.IsPlain

variable {h : Heap} {c : Cell}

/-- No cells are plain. -/
theorem isPlain_empty : empty.IsPlain :=
  ⟨⟨fun _ haddr => haddr, fun _ haddr => absurd haddr (Nat.not_lt_zero _)⟩, by simp [empty, get?]⟩

/-- A plain heap stays plain with one more plain cell that leads to cells that are there. -/
theorem IsPlain.alloc (hplain : h.IsPlain) (hc : c.IsPlain)
    (hslots : ∀ s ∈ c.slots, s.In (Set.Iio h.cells.size)) : (h.alloc c).2.IsPlain := by
  have hdomain := (hplain.domain.grown_alloc hslots).domain
  have hinsert : insert h.cells.size (Set.Iio h.cells.size) =
      Set.Iio (h.alloc c).2.cells.size := by
    rw [size_alloc]
    ext addr
    exact (Nat.lt_succ_iff_lt_or_eq.trans or_comm).symm
  refine ⟨hinsert ▸ hdomain, fun addr d hd => ?_⟩
  have hlt := lt_size_of_get? hd
  rw [size_alloc] at hlt
  rcases Nat.lt_succ_iff_lt_or_eq.mp hlt with hlt | rfl
  · exact hplain.plain addr d ((get?_alloc_of_lt h c hlt).symm.trans hd)
  · obtain rfl : c = d := Option.some.inj ((get?_alloc h c).symm.trans hd)
    exact hc

/-- A plain heap stays plain with another plain content of a cell that leads to cells that are
there. -/
theorem IsPlain.write (hplain : h.IsPlain) (hc : c.IsPlain)
    (hslots : ∀ s ∈ c.slots, s.In (Set.Iio h.cells.size)) (addr : Addr) :
    (h.write addr c).IsPlain := by
  refine ⟨by simpa using hplain.domain.write hslots addr, fun other d hd => ?_⟩
  by_cases hne : addr = other
  · subst hne
    have hlt := lt_size_of_get? hd
    rw [size_write] at hlt
    rw [get?_write h c hlt] at hd
    exact Option.some.inj hd ▸ hc
  · rw [get?_write_of_ne h c hne] at hd
    exact hplain.plain other d hd

end Heap

namespace Yaml

/-- The container that stands so many cells further on. -/
def Unfilled.shift (n : Nat) (u : Unfilled) : Unfilled := { u with addr := n + u.addr }

/-- The loader whose cells stand behind those of a heap. -/
def Loader.behind (h : Heap) (l : Loader) : Loader where
  graph := l.graph
  heap := h.behind l.heap
  made := l.made.map (Option.map (Slot.shift h.cells.size))
  unfilled := l.unfilled.map (Unfilled.shift h.cells.size)

/-- What a loader made leads to cells that are there, and none of them is an object of a host. -/
structure Loader.IsPlain (l : Loader) : Prop where
  heap : l.heap.IsPlain
  made : ∀ (i : NodeId) (s : Slot), l.made[i]? = some (some s) → s.In (Set.Iio l.heap.cells.size)

namespace Loading

variable {α β ι : Type} {h : Heap}

/-! ## Behind other cells -/

/-- A step does behind the cells of a heap what another one does on its own, and comes to the same
but for the addresses, which move further on. -/
def Follows (h : Heap) (x : Loading α) (move : α → α) (y : Loading α) : Prop :=
  ∀ l, y.run (l.behind h) = (x.run l).map fun (a, l) => (move a, l.behind h)

section Follows

variable {x y : Loading α} {f g : α → Loading β} {move : α → α} {move' : β → β}

/-- An answer. -/
theorem follows_pure (move : α → α) (a : α) : Follows h (pure a) move (pure (move a)) :=
  fun _ => rfl

/-- A fault. -/
theorem follows_throw (move : α → α) (e : Fault) : Follows h (throw e) move (throw e) :=
  fun _ => rfl

/-- An answer without addresses, or a fault. -/
theorem follows_lift (r : Except Fault α) : Follows h (liftM r) id (liftM r) := by
  intro l
  cases r <;> rfl

/-- The loader itself. -/
theorem follows_get : Follows h get (Loader.behind h) get := fun _ => rfl

/-- A node, which has no address. -/
theorem follows_node (i : NodeId) : Follows h (node i) id (node i) := fun _ => rfl

/-- A change of the loader. -/
theorem follows_modify {change change' : Loader → Loader}
    (hchange : ∀ l, change' (l.behind h) = (change l).behind h) :
    Follows h (modify change) id (modify change') := by
  intro l
  show Except.ok ((), change' (l.behind h)) = _
  rw [hchange]
  rfl

/-- Steps one after the other. -/
theorem Follows.bind (hx : Follows h x move y) (hf : ∀ a, Follows h (f a) move' (g (move a))) :
    Follows h (x >>= f) move' (y >>= g) := by
  intro l
  rw [StateT.run_bind, StateT.run_bind, hx l]
  rcases x.run l with e | ⟨a, l'⟩
  · rfl
  · exact hf a l'

/-- A step for each of several things. -/
theorem follows_mapM {step : ι → Loading α} (hstep : ∀ i, Follows h (step i) move (step i))
    (is : List ι) : Follows h (is.mapM step) (List.map move) (is.mapM step) := by
  induction is with
  | nil => exact follows_pure _ []
  | cons i is ih =>
    rw [List.mapM_cons]
    exact (hstep i).bind fun a => ih.bind fun as => follows_pure _ (a :: as)

end Follows

/-- A new container. -/
theorem follows_newContainer (i : NodeId) {c : Cell} (hc : c.shift h.cells.size = c)
    (filling : Filling) :
    Follows h (newContainer i c filling) (Slot.shift h.cells.size)
      (newContainer i c filling) := by
  intro l
  have halloc := h.alloc_behind l.heap c
  rw [hc] at halloc
  show Except.ok (Slot.ref ((h.behind l.heap).alloc c).1, { l.behind h with
    heap := ((h.behind l.heap).alloc c).2
    unfilled := ⟨i, ((h.behind l.heap).alloc c).1, filling⟩ :: (l.behind h).unfilled }) = _
  rw [halloc]
  rfl

/-- What a node is, made anew. -/
theorem follows_make (i : NodeId) : Follows h (make i) (Slot.shift h.cells.size) (make i) := by
  unfold make
  refine (follows_node i).bind fun n => ?_
  dsimp only [id]
  split
  · exact follows_newContainer i rfl _
  · exact follows_newContainer i rfl _
  · exact follows_newContainer i rfl _
  · exact follows_newContainer i rfl _
  · exact follows_newContainer i rfl _
  · exact follows_throw _ _
  · exact follows_throw _ _
  · exact follows_throw _ _
  · refine follows_get.bind fun l => (follows_lift _).bind fun text => ?_
    exact (follows_lift _).bind fun a => follows_pure _ (Slot.atom a)

/-- What a node is. -/
theorem follows_slot (i : NodeId) : Follows h (slot i) (Slot.shift h.cells.size) (slot i) := by
  unfold slot
  refine follows_get.bind fun l => ?_
  have hmade : (l.behind h).made[i]? = (l.made[i]?).map (Option.map (Slot.shift h.cells.size)) := by
    simp [Loader.behind]
  have hnew : Follows h
      (do
        let s ← make i
        modify fun l => { l with made := l.made.setIfInBounds i (some s) }
        return s)
      (Slot.shift h.cells.size)
      (do
        let s ← make i
        modify fun l => { l with made := l.made.setIfInBounds i (some s) }
        return s) := by
    refine (follows_make i).bind fun s => (follows_modify fun l => ?_).bind fun _ =>
      follows_pure _ s
    simp [Loader.behind]
  rw [hmade]
  rcases l.made[i]? with _ | _ | s
  · exact hnew
  · exact hnew
  · exact follows_pure _ s

/-- What a node is as a key. -/
theorem follows_key (i : NodeId) : Follows h (key i) id (key i) := by
  unfold key
  refine (follows_slot i).bind fun s => ?_
  cases s with
  | atom a => exact follows_pure _ a
  | ref addr => exact (follows_node i).bind fun n => follows_throw _ _

/-- Entries put into those found so far. -/
theorem follows_putEntries (found : Entries Slot) (pairs : List (NodeId × NodeId)) :
    Follows h (putEntries found pairs) (shiftNamed h.cells.size)
      (putEntries (shiftNamed h.cells.size found) pairs) := by
  induction pairs generalizing found with
  | nil => exact follows_pure _ found
  | cons p rest ih =>
    unfold putEntries
    refine (follows_key p.1).bind fun a => (follows_slot p.2).bind fun s => ?_
    dsimp only [id]
    rw [Entries.put_shiftNamed]
    exact ih (found.put a s)

/-- The entries of a mapping. -/
theorem follows_entriesOf (i : NodeId) :
    Follows h (entriesOf i) (shiftNamed h.cells.size) (entriesOf i) := by
  unfold entriesOf
  refine (follows_node i).bind fun n => ?_
  dsimp only [id]
  split
  · refine follows_get.bind fun l => (follows_lift _).bind fun g => ?_
    have hgraph : Follows h (modify fun l => { l with graph := g }) id
        (modify fun l => { l with graph := g }) := follows_modify fun _ => rfl
    exact hgraph.bind fun _ => follows_putEntries [] _
  · exact follows_throw _ _

/-- The row of key and value of a mapping that has one entry. -/
theorem follows_pair (i : NodeId) : Follows h (pair i) (Slot.shift h.cells.size) (pair i) := by
  unfold pair
  refine (follows_node i).bind fun n => ?_
  dsimp only [id]
  split
  · refine (follows_slot _).bind fun first => (follows_slot _).bind fun second => ?_
    intro l
    exact congrArg (fun p => Except.ok (Slot.ref p.1, { l.behind h with heap := p.2 }))
      (h.alloc_behind l.heap (.row [first, second]))
  · exact follows_throw _ _

/-- What a container holds. -/
theorem follows_contentOf (i : NodeId) (filling : Filling) :
    Follows h (contentOf i filling) (Cell.shift h.cells.size) (contentOf i filling) := by
  unfold contentOf
  refine (follows_node i).bind fun n => ?_
  dsimp only [id]
  split
  · exact (follows_mapM follows_slot _).bind fun items => follows_pure _ (Cell.list items)
  · exact (follows_mapM follows_pair _).bind fun items => follows_pure _ (Cell.list items)
  · exact (follows_entriesOf i).bind fun es => follows_pure _ (Cell.map es)
  · refine (follows_entriesOf i).bind fun es => ?_
    rw [Entries.keys_shiftNamed]
    exact follows_pure _ (Cell.set es.keys)
  · exact follows_throw _ _

/-- A container is filled. -/
theorem follows_fill (u : Unfilled) : Follows h (fill u) id (fill (u.shift h.cells.size)) := by
  unfold fill
  refine (follows_contentOf u.node u.filling).bind fun c => follows_modify fun l => ?_
  exact congrArg (fun heap => { l.behind h with heap }) (h.write_behind l.heap u.addr c)

/-- Several containers are filled. -/
theorem follows_forM_fill (us : List Unfilled) :
    Follows h (us.forM fill) id ((us.map (Unfilled.shift h.cells.size)).forM fill) := by
  induction us with
  | nil => exact follows_pure _ ()
  | cons u us ih => exact (follows_fill u).bind fun _ => ih

/-- All containers are filled, round by round. -/
theorem follows_fillAll (fuel : Nat) : Follows h (fillAll fuel) id (fillAll fuel) := by
  induction fuel with
  | zero => exact follows_pure _ ()
  | succ fuel ih =>
    unfold fillAll
    refine follows_get.bind fun l => ?_
    have hreverse : (l.behind h).unfilled.reverse =
        l.unfilled.reverse.map (Unfilled.shift h.cells.size) := List.map_reverse.symm
    rw [hreverse]
    rcases l.unfilled.reverse with _ | ⟨u, us⟩
    · exact follows_pure _ ()
    · have hround : Follows h (modify fun l => { l with unfilled := [] }) id
          (modify fun l => { l with unfilled := [] }) := follows_modify fun _ => rfl
      exact hround.bind fun _ => (follows_forM_fill (u :: us)).bind fun _ => ih

/-! ## What is made -/

/-- A step that starts with so many cells keeps them, and goes on with plain cells only; what it
comes to is good for the number of cells there are then. -/
def Keeps (n : Nat) (x : Loading α) (good : Nat → α → Prop) : Prop :=
  ∀ l, l.IsPlain → n ≤ l.heap.cells.size → ∀ a l', x.run l = .ok (a, l') →
    l'.IsPlain ∧ n ≤ l'.heap.cells.size ∧ good l'.heap.cells.size a

section Keeps

variable {n : Nat} {x : Loading α} {f : α → Loading β} {good : Nat → α → Prop}
  {good' : Nat → β → Prop}

/-- An answer. -/
theorem keeps_pure {a : α} (h : ∀ m, n ≤ m → good m a) : Keeps n (pure a) good := by
  rintro l hl hn a l' ⟨⟩
  exact ⟨hl, hn, h _ hn⟩

/-- A fault. -/
theorem keeps_throw (e : Fault) : Keeps n (throw e : Loading α) good := by
  rintro l hl hn a l' ⟨⟩

/-- An answer without addresses, or a fault. -/
theorem keeps_lift (r : Except Fault α) : Keeps n (liftM r) fun _ _ => True := by
  intro l hl hn a l' h
  rcases r with e | b
  · cases h
  · obtain ⟨-, rfl⟩ := Prod.mk.inj (Except.ok.inj h)
    exact ⟨hl, hn, trivial⟩

/-- The loader itself. -/
theorem keeps_get : Keeps n get fun m l => l.IsPlain ∧ l.heap.cells.size ≤ m := by
  rintro l hl hn a l' ⟨⟩
  exact ⟨hl, hn, hl, le_rfl⟩

/-- A node. -/
theorem keeps_node (i : NodeId) : Keeps n (node i) fun _ _ => True := by
  rintro l hl hn a l' ⟨⟩
  exact ⟨hl, hn, trivial⟩

/-- A change of the loader. -/
theorem keeps_modify {change : Loader → Loader} (h : ∀ l, l.IsPlain → n ≤ l.heap.cells.size →
    (change l).IsPlain ∧ n ≤ (change l).heap.cells.size) :
    Keeps n (modify change) fun _ _ => True := by
  rintro l hl hn a l' ⟨⟩
  exact ⟨(h l hl hn).1, (h l hl hn).2, trivial⟩

/-- Steps one after the other. -/
theorem Keeps.bind (hx : Keeps n x good)
    (hf : ∀ m a, n ≤ m → good m a → Keeps m (f a) good') : Keeps n (x >>= f) good' := by
  intro l hl hn b l' h
  rw [StateT.run_bind] at h
  rcases hrun : x.run l with e | ⟨a, l₁⟩
  · rw [hrun] at h
    cases h
  · rw [hrun] at h
    obtain ⟨hl₁, hn₁, ha⟩ := hx l hl hn a l₁ hrun
    obtain ⟨hl', hle, hb⟩ := hf _ a hn₁ ha l₁ hl₁ le_rfl b l' h
    exact ⟨hl', hn₁.trans hle, hb⟩

end Keeps

variable {n : Nat}

/-- A slot that leads to one of so many cells leads to one of more. -/
theorem in_Iio_mono {m : Nat} {s : Slot} (h : s.In (Set.Iio n)) (hle : n ≤ m) :
    s.In (Set.Iio m) := h.mono (Set.Iio_subset_Iio hle)

/-- Slots, one for each of several things. -/
theorem keeps_mapM {step : ι → Loading Slot}
    (hstep : ∀ m i, Keeps m (step i) fun m s => s.In (Set.Iio m)) (is : List ι) :
    Keeps n (is.mapM step) fun m ss => ∀ s ∈ ss, s.In (Set.Iio m) := by
  induction is generalizing n with
  | nil => exact keeps_pure fun m _ s hs => absurd hs List.not_mem_nil
  | cons i is ih =>
    rw [List.mapM_cons]
    refine (hstep n i).bind fun m s _ hs => ih.bind fun m' ss hle hss => keeps_pure fun k hk => ?_
    exact List.forall_mem_cons.mpr
      ⟨in_Iio_mono hs (hle.trans hk), fun t ht => in_Iio_mono (hss t ht) hk⟩

/-- A new cell. -/
theorem isPlain_alloc {l : Loader} (hl : l.IsPlain) {c : Cell} (hc : c.IsPlain)
    (hslots : ∀ s ∈ c.slots, s.In (Set.Iio l.heap.cells.size)) (unfilled : List Unfilled) :
    ({ l with heap := (l.heap.alloc c).2, unfilled } : Loader).IsPlain :=
  ⟨hl.heap.alloc hc hslots, fun i s hs => in_Iio_mono (hl.made i s hs) (by simp)⟩

/-- A new container. -/
theorem keeps_newContainer (i : NodeId) {c : Cell} (hc : c.IsPlain) (hslots : c.slots = [])
    (filling : Filling) : Keeps n (newContainer i c filling) fun m s => s.In (Set.Iio m) := by
  rintro l hl hn a l' ⟨⟩
  refine ⟨isPlain_alloc hl hc (by simp [hslots]) _, ?_, ?_⟩
  · simpa using Nat.le_succ_of_le hn
  · exact (l.heap.size_alloc c).symm ▸ Nat.lt_succ_self _

/-- What a node is, made anew. -/
theorem keeps_make (i : NodeId) : Keeps n (make i) fun m s => s.In (Set.Iio m) := by
  unfold make
  refine (keeps_node i).bind fun m nd _ _ => ?_
  split
  · exact keeps_newContainer i (by trivial) rfl _
  · exact keeps_newContainer i (by trivial) rfl _
  · exact keeps_newContainer i (by trivial) rfl _
  · exact keeps_newContainer i (by trivial) rfl _
  · exact keeps_newContainer i (by trivial) rfl _
  · exact keeps_throw _
  · exact keeps_throw _
  · exact keeps_throw _
  · refine keeps_get.bind fun m l _ _ => (keeps_lift _).bind fun m text _ _ => ?_
    exact (keeps_lift _).bind fun m a _ _ => keeps_pure fun _ _ => trivial

/-- What a node is. -/
theorem keeps_slot (i : NodeId) : Keeps n (slot i) fun m s => s.In (Set.Iio m) := by
  unfold slot
  refine keeps_get.bind fun m l _ hl => ?_
  split
  · rename_i s hmade
    exact keeps_pure fun k hk => in_Iio_mono (hl.1.made i s hmade) (hl.2.trans hk)
  · refine (keeps_make i).bind fun m s _ hs => ?_
    refine (keeps_modify (n := m) fun l hl hm => ?_).bind fun k _ hk _ =>
      keeps_pure fun j hj => in_Iio_mono hs (hk.trans hj)
    refine ⟨⟨hl.heap, fun j t ht => ?_⟩, hm⟩
    rw [Array.getElem?_setIfInBounds] at ht
    split at ht
    · split at ht
      · obtain rfl := Option.some.inj (Option.some.inj ht)
        exact in_Iio_mono hs hm
      · cases ht
    · exact hl.made j t ht

/-- What a node is as a key. -/
theorem keeps_key (i : NodeId) : Keeps n (key i) fun _ _ => True := by
  unfold key
  refine (keeps_slot i).bind fun m s _ _ => ?_
  cases s with
  | atom a => exact keeps_pure fun _ _ => trivial
  | ref addr => exact (keeps_node i).bind fun m nd _ _ => keeps_throw _

/-- Entries put into those found so far. -/
theorem keeps_putEntries {found : Entries Slot} (hfound : ∀ e ∈ found, e.2.In (Set.Iio n))
    (pairs : List (NodeId × NodeId)) :
    Keeps n (putEntries found pairs) fun m es => ∀ e ∈ es, e.2.In (Set.Iio m) := by
  induction pairs generalizing n found with
  | nil => exact keeps_pure fun m hm e he => in_Iio_mono (hfound e he) hm
  | cons p rest ih =>
    unfold putEntries
    refine (keeps_key p.1).bind fun m a hm _ => (keeps_slot p.2).bind fun k s hk hs => ih ?_
    intro e he
    rcases Entries.mem_put he with heq | ⟨d, hd, heq⟩
    · rwa [heq]
    · rw [← heq]
      exact in_Iio_mono (hfound d hd) (hm.trans hk)

/-- The entries of a mapping. -/
theorem keeps_entriesOf (i : NodeId) :
    Keeps n (entriesOf i) fun m es => ∀ e ∈ es, e.2.In (Set.Iio m) := by
  unfold entriesOf
  refine (keeps_node i).bind fun m nd _ _ => ?_
  split
  · refine keeps_get.bind fun m l _ _ => (keeps_lift _).bind fun m g _ _ => ?_
    have hgraph : Keeps m (modify fun l => { l with graph := g }) fun _ _ => True :=
      keeps_modify fun l hl hm => ⟨⟨hl.heap, hl.made⟩, hm⟩
    exact hgraph.bind fun k _ _ _ =>
      keeps_putEntries (fun e he => absurd he List.not_mem_nil) _
  · exact keeps_throw _

/-- The row of key and value of a mapping that has one entry. -/
theorem keeps_pair (i : NodeId) : Keeps n (pair i) fun m s => s.In (Set.Iio m) := by
  unfold pair
  refine (keeps_node i).bind fun m nd _ _ => ?_
  split
  · refine (keeps_slot _).bind fun m first _ hfirst => ?_
    refine (keeps_slot _).bind fun k second hk hsecond => ?_
    rintro l hl hn a l' ⟨⟩
    refine ⟨isPlain_alloc hl (by trivial) ?_ _, ?_, ?_⟩
    · exact List.forall_mem_cons.mpr ⟨in_Iio_mono hfirst (hk.trans hn),
        List.forall_mem_singleton.mpr (in_Iio_mono hsecond hn)⟩
    · simpa using Nat.le_succ_of_le hn
    · exact (l.heap.size_alloc _).symm ▸ Nat.lt_succ_self _
  · exact keeps_throw _

/-- What a container holds. -/
theorem keeps_contentOf (i : NodeId) (filling : Filling) :
    Keeps n (contentOf i filling) fun m c => c.IsPlain ∧ ∀ s ∈ c.slots, s.In (Set.Iio m) := by
  unfold contentOf
  refine (keeps_node i).bind fun m nd _ _ => ?_
  split
  · refine (keeps_mapM (fun m i => keeps_slot i) _).bind fun k ss _ hss => keeps_pure fun j hj => ?_
    exact ⟨trivial, fun s hs => in_Iio_mono (hss s hs) hj⟩
  · refine (keeps_mapM (fun m i => keeps_pair i) _).bind fun k ss _ hss => keeps_pure fun j hj => ?_
    exact ⟨trivial, fun s hs => in_Iio_mono (hss s hs) hj⟩
  · refine (keeps_entriesOf i).bind fun k es _ hes => keeps_pure fun j hj => ?_
    exact ⟨trivial, List.forall_mem_map.mpr fun e he => in_Iio_mono (hes e he) hj⟩
  · refine (keeps_entriesOf i).bind fun k es _ _ => keeps_pure fun j hj => ?_
    exact ⟨trivial, fun s hs => absurd hs List.not_mem_nil⟩
  · exact keeps_throw _

/-- A container is filled. -/
theorem keeps_fill (u : Unfilled) : Keeps n (fill u) fun _ _ => True := by
  unfold fill
  refine (keeps_contentOf u.node u.filling).bind fun m c _ hc => keeps_modify fun l hl hm => ?_
  refine ⟨⟨hl.heap.write hc.1 (fun s hs => in_Iio_mono (hc.2 s hs) hm) u.addr, ?_⟩, by simpa⟩
  simpa using hl.made

/-- Several containers are filled. -/
theorem keeps_forM_fill (us : List Unfilled) : Keeps n (us.forM fill) fun _ _ => True := by
  induction us generalizing n with
  | nil => exact keeps_pure fun _ _ => trivial
  | cons u us ih => exact (keeps_fill u).bind fun m _ _ _ => ih

/-- All containers are filled, round by round. -/
theorem keeps_fillAll (fuel : Nat) : Keeps n (fillAll fuel) fun _ _ => True := by
  induction fuel generalizing n with
  | zero => exact keeps_pure fun _ _ => trivial
  | succ fuel ih =>
    unfold fillAll
    refine keeps_get.bind fun m l _ _ => ?_
    split
    · exact keeps_pure fun _ _ => trivial
    · have hround : Keeps m (modify fun l => { l with unfilled := [] }) fun _ _ => True :=
        keeps_modify fun l hl hm => ⟨⟨hl.heap, hl.made⟩, hm⟩
      exact hround.bind fun _ _ _ _ => (keeps_forM_fill _).bind fun _ _ _ _ => ih

end Loading

/-- A graph is loaded behind other cells as on its own. -/
theorem Graph.load_behind (g : Graph) (root : NodeId) (h fresh : Heap) :
    g.load root (h.behind fresh) =
      (g.load root fresh).map fun (s, fresh) => (s.shift h.cells.size, h.behind fresh) := by
  have hsteps : Loading.Follows h
      (do
        let s ← Loading.slot root
        Loading.fillAll (g.nodes.size + 1)
        return s)
      (Slot.shift h.cells.size)
      (do
        let s ← Loading.slot root
        Loading.fillAll (g.nodes.size + 1)
        return s) :=
    (Loading.follows_slot root).bind fun s => (Loading.follows_fillAll _).bind fun _ =>
      Loading.follows_pure _ s
  have hstart : (⟨g, h.behind fresh, Array.replicate g.nodes.size none, []⟩ : Loader) =
      Loader.behind h ⟨g, fresh, Array.replicate g.nodes.size none, []⟩ := by
    simp [Loader.behind]
  unfold Graph.load
  dsimp only
  rw [hstart, hsteps]
  generalize StateT.run (do
    let s ← Loading.slot root
    Loading.fillAll (g.nodes.size + 1)
    return s) (⟨g, fresh, Array.replicate g.nodes.size none, []⟩ : Loader) = r
  rcases r with e | ⟨s, l⟩ <;> rfl

/-- A document is loaded behind other cells as on its own. -/
theorem load_behind (bytes : List UInt8) (h fresh : Heap) :
    load bytes (h.behind fresh) =
      (load bytes fresh).map fun (s, fresh) => (s.shift h.cells.size, h.behind fresh) := by
  unfold load
  rcases Graph.ofSource (.ofBytes bytes) with e | ⟨g, _ | root⟩
  · rfl
  · rfl
  · exact g.load_behind root h fresh

/-- What a graph is loaded as, in a plain heap, leads to cells of one that is plain too. -/
theorem Graph.isPlain_load {g : Graph} {root : NodeId} {h h' : Heap} {s : Slot}
    (hplain : h.IsPlain) (hload : g.load root h = .ok (s, h')) :
    h'.IsPlain ∧ s.In (Set.Iio h'.cells.size) := by
  have hsteps : Loading.Keeps h.cells.size
      (do
        let s ← Loading.slot root
        Loading.fillAll (g.nodes.size + 1)
        return s)
      fun m s => s.In (Set.Iio m) :=
    (Loading.keeps_slot root).bind fun m s _ hs => (Loading.keeps_fillAll _).bind fun k _ hk _ =>
      Loading.keeps_pure fun j hj => Loading.in_Iio_mono hs (hk.trans hj)
  have hstart : (⟨g, h, Array.replicate g.nodes.size none, []⟩ : Loader).IsPlain :=
    ⟨hplain, fun i s hs => by simp [Array.getElem?_replicate] at hs⟩
  unfold Graph.load at hload
  obtain ⟨⟨a, l⟩, hrun, hload⟩ := bind_eq_ok hload
  obtain ⟨rfl, rfl⟩ := Prod.mk.inj (Except.ok.inj hload)
  obtain ⟨hl, -, hs⟩ := hsteps _ hstart le_rfl _ _ hrun
  exact ⟨hl.heap, hs⟩

/-- What a document is loaded as leads to cells that are made for it, and none of them is an object
of a host. -/
theorem isPlain_load {bytes : List UInt8} {h h' : Heap} {s : Slot} (hplain : h.IsPlain)
    (hload : load bytes h = .ok (s, h')) : h'.IsPlain ∧ s.In (Set.Iio h'.cells.size) := by
  unfold load at hload
  obtain ⟨⟨g, root⟩, -, hload⟩ := bind_eq_ok hload
  rcases root with _ | root
  · obtain ⟨rfl, rfl⟩ := Prod.mk.inj (Except.ok.inj hload)
    exact ⟨hplain, trivial⟩
  · exact Graph.isPlain_load hplain hload

end Yaml
end Stratum
