import Stratum.Proofs.Heap.Behind
import Stratum.Proofs.Resolve.Growth

/-!
# Resolving anew

What resolving a name comes to depends on the files and on the managed values, and not on what was
made or told before. What it makes stands behind what was there, and is the same each time but for
the addresses, so that it is read off as the same (`Act.Anew.reading_eq`).
-/

namespace Stratum

/-- The store with what another one holds behind its own. -/
def Store.behind (st fresh : Store) : Store := ⟨st.heap.behind fresh.heap, st.log ++ fresh.log⟩

/-- Nothing behind a store leaves it as it is. -/
@[simp] theorem Store.behind_empty (st : Store) : st.behind .empty = st := by
  simp [behind, Store.empty]

/-- What an act stands on: a provider, and what was made and told before. -/
structure Ground where
  overlay : Overlay
  store : Store

/-- The number of cells that were there before. -/
def Ground.size (g : Ground) : Nat := g.store.heap.cells.size

/-! ## Acts behind others -/

namespace Act

variable {α β : Type} {P : Ground → Prop} {move : Nat → α → α} {move' : Nat → β → β}

/-- On every ground of a kind an act does the same behind what was there, and comes to the same but
for the addresses, which move on by the number of cells that were there. -/
def Anew (P : Ground → Prop) (x : Ground → Act α) (move : Nat → α → α) : Prop :=
  ∀ fresh, ∃ (r : Except Failure α) (fresh' : Store), ∀ g, P g →
    (x g).run.run (g.store.behind fresh) = (r.map (move g.size), g.store.behind fresh')

/-- An answer. -/
theorem anew_pure (move : Nat → α → α) (a : α) : Anew P (fun g => pure (move g.size a)) move :=
  fun fresh => ⟨.ok a, fresh, fun _ _ => rfl⟩

/-- A failure. -/
theorem anew_throw (move : Nat → α → α) (e : Failure) : Anew P (fun _ => throw e) move :=
  fun fresh => ⟨.error e, fresh, fun _ _ => rfl⟩

/-- An act that does nothing but tell lines. -/
theorem OnlyTells.anew {act : Act α} (h : act.OnlyTells) : Anew P (fun _ => act) fun _ => id := by
  intro fresh
  refine ⟨act.result, { fresh with log := fresh.log ++ act.lines }, fun g _ => ?_⟩
  rw [h.tells]
  simp [Store.behind]

/-- An answer that may be a failure. -/
theorem anew_ofExcept (r : Except Failure α) : Anew P (fun _ => ofExcept r) fun _ => id := by
  cases r with
  | ok a => exact anew_pure (fun _ => id) a
  | error e => exact anew_throw _ e

/-- A reading of the heap. -/
theorem anew_look {f : Ground → Heap → α} (move : Nat → α → α) (f₀ : Heap → α)
    (h : ∀ g fresh, P g → f g (g.store.heap.behind fresh) = move g.size (f₀ fresh)) :
    Anew P (fun g => look (f g)) move := by
  intro fresh
  refine ⟨.ok (f₀ fresh.heap), fresh, fun g hg => ?_⟩
  exact congrArg (fun a => (Except.ok a, g.store.behind fresh)) (h g fresh.heap hg)

/-- Making objects. -/
theorem anew_make {f : Ground → Heap → α × Heap} (move : Nat → α → α) (f₀ : Heap → α × Heap)
    (h : ∀ g fresh, P g → f g (g.store.heap.behind fresh) =
      (move g.size (f₀ fresh).1, g.store.heap.behind (f₀ fresh).2)) :
    Anew P (fun g => make (f g)) move := by
  intro fresh
  refine ⟨.ok (f₀ fresh.heap).1, { fresh with heap := (f₀ fresh.heap).2 }, fun g hg => ?_⟩
  exact congrArg (fun p => (Except.ok p.1, (⟨p.2, g.store.log ++ fresh.log⟩ : Store)))
    (h g fresh.heap hg)

/-- Making objects, unless that fails. -/
theorem anew_makeOr {f : Ground → Heap → Option (α × Heap)} (move : Nat → α → α) (e : Failure)
    (f₀ : Heap → Option (α × Heap)) (h : ∀ g fresh, P g → f g (g.store.heap.behind fresh) =
      (f₀ fresh).map fun p => (move g.size p.1, g.store.heap.behind p.2)) :
    Anew P (fun g => makeOr e (f g)) move := by
  intro fresh
  rcases hmade : f₀ fresh.heap with _ | ⟨a, heap⟩
  · refine ⟨.error e, fresh, fun g hg => ?_⟩
    have hnone := h g fresh.heap hg
    rw [hmade] at hnone
    rw [run_makeOr, show (g.store.behind fresh).heap = g.store.heap.behind fresh.heap from rfl,
      hnone]
    rfl
  · refine ⟨.ok a, { fresh with heap }, fun g hg => ?_⟩
    have hsome := h g fresh.heap hg
    rw [hmade] at hsome
    rw [run_makeOr, show (g.store.behind fresh).heap = g.store.heap.behind fresh.heap from rfl,
      hsome]
    rfl

/-- Storing a value. -/
theorem anew_store (v : Value) : Anew P (fun _ => make (·.store v)) Slot.shift :=
  anew_make Slot.shift (·.store v) fun g fresh _ => g.store.heap.store_behind fresh v

/-- A new cell. -/
theorem anew_alloc (c : Cell) {f : Ground → Cell} (hf : ∀ g, f g = c.shift g.size) :
    Anew P (fun g => make fun h => (.ref (h.alloc (f g)).1, (h.alloc (f g)).2)) Slot.shift := by
  refine anew_make Slot.shift (fun h => (.ref (h.alloc c).1, (h.alloc c).2)) fun g fresh _ => ?_
  rw [hf]
  exact congrArg (fun p => (Slot.ref p.1, p.2)) (g.store.heap.alloc_behind fresh c)

/-- Acts one after the other. -/
theorem Anew.bind {x : Ground → Act α} {f : Ground → α → Act β} (hx : Anew P x move)
    (hf : ∀ a, Anew P (fun g => f g (move g.size a)) move') :
    Anew P (fun g => x g >>= f g) move' := by
  intro fresh
  obtain ⟨e | a, fresh₁, hx⟩ := hx fresh
  · refine ⟨.error e, fresh₁, fun g hg => ?_⟩
    rw [run_bind, hx g hg]
    rfl
  · obtain ⟨r, fresh₂, hf⟩ := hf a fresh₁
    refine ⟨r, fresh₂, fun g hg => ?_⟩
    rw [run_bind, hx g hg]
    exact hf g hg

/-- An act whose failures are handled. -/
theorem Anew.tryCatch {x : Ground → Act α} {handle : Ground → Failure → Act α}
    (hx : Anew P x move) (hhandle : ∀ e, Anew P (fun g => handle g e) move) :
    Anew P (fun g => MonadExcept.tryCatch (x g) (handle g)) move := by
  intro fresh
  obtain ⟨e | a, fresh₁, hx⟩ := hx fresh
  · obtain ⟨r, fresh₂, hhandle⟩ := hhandle e fresh₁
    refine ⟨r, fresh₂, fun g hg => ?_⟩
    rw [run_tryCatch, hx g hg]
    exact hhandle g hg
  · refine ⟨.ok a, fresh₁, fun g hg => ?_⟩
    rw [run_tryCatch, hx g hg]
    rfl

/-- Acts that do the same on each ground of a kind, whatever was made behind it. -/
theorem Anew.congr_run {x y : Ground → Act α} (hx : Anew P x move)
    (h : ∀ g fresh, P g →
      (y g).run.run (g.store.behind fresh) = (x g).run.run (g.store.behind fresh)) :
    Anew P y move := by
  intro fresh
  obtain ⟨r, fresh', hx⟩ := hx fresh
  exact ⟨r, fresh', fun g hg => (h g fresh hg).trans (hx g hg)⟩

/-- Acts that are the same on each ground of a kind. -/
theorem Anew.congr {x y : Ground → Act α} (hx : Anew P x move) (h : ∀ g, P g → y g = x g) :
    Anew P y move := hx.congr_run fun g _ hg => by rw [h g hg]

/-! ## Reading off -/

/-- What an act comes to, read off, and the lines that it tells. -/
def reading (read : Heap → α → β) (act : Act α) (st : Store) : Except Failure β × List Line :=
  let (r, st') := act.run.run st
  (r.map (read st'.heap), st'.log.drop st.log.length)

/-- An act that does the same on grounds of a kind tells its lines behind those that were told. -/
theorem Anew.log_append {x : Ground → Act α} (hx : Anew P x move) {g : Ground} (hg : P g) :
    ∃ lines, ((x g).run.run g.store).2.log = g.store.log ++ lines := by
  obtain ⟨r, fresh, hx⟩ := hx .empty
  have hrun := hx g hg
  rw [Store.behind_empty] at hrun
  exact ⟨fresh.log, congrArg (fun p => p.2.log) hrun⟩

/-- An act that does the same on grounds of a kind is read off as the same on them. -/
theorem Anew.reading_eq {x : Ground → Act α} {read : Heap → α → β} (hx : Anew P x move)
    (hread : ∀ (h fresh : Heap) (a : α),
      read (h.behind fresh) (move h.cells.size a) = read fresh a) {g g' : Ground} (hg : P g)
    (hg' : P g') : (x g).reading read g.store = (x g').reading read g'.store := by
  obtain ⟨r, fresh, hx⟩ := hx .empty
  -- What was made stands behind what was there, on whichever ground.
  have heq : ∀ k, P k → (x k).reading read k.store = (r.map (read fresh.heap), fresh.log) := by
    intro k hk
    have hrun := hx k hk
    rw [Store.behind_empty] at hrun
    unfold reading
    rw [hrun]
    refine Prod.ext ?_ (by simp [Store.behind])
    rcases r with e | a
    · rfl
    · exact congrArg Except.ok (hread k.store.heap fresh.heap a)
  rw [heq g hg, heq g' hg']

end Act

/-! ## Parsing -/

namespace Document

open Act (Anew anew_pure anew_throw anew_look anew_alloc anew_store)

variable {P : Ground → Prop}

/-- A JSON document. -/
theorem anew_ofJson (bytes : List UInt8) (name : String) :
    Anew P (fun _ => ofJson bytes name) Slot.shift := by
  unfold ofJson
  rcases Text.Utf8.decode bytes with fault | text
  · exact anew_throw _ _
  · dsimp only
    by_cases hblank : text.all Text.isBlank
    · rw [if_pos hblank]
      exact anew_pure Slot.shift (.atom .null)
    · rw [if_neg hblank]
      rcases Json.read text with (problem | fault) | v
      · exact anew_throw _ _
      · exact anew_throw _ _
      · exact anew_store v

/-- A YAML document. -/
theorem anew_ofYaml (bytes : List UInt8) (name : String) :
    Anew P (fun _ => ofYaml bytes name) Slot.shift := by
  intro fresh
  have hrun : ∀ st : Store, (ofYaml bytes name).run.run st = match Yaml.load bytes st.heap with
      | .ok (s, heap) => (.ok s, { st with heap })
      | .error fault => (.error (yamlFailure name fault), st) := by
    intro st
    have hget : (get : Act Store).run.run st = (.ok st, st) := rfl
    unfold ofYaml
    rw [Act.run_bind, hget]
    dsimp only
    rcases Yaml.load bytes st.heap with fault | ⟨s, heap⟩
    · cases fault <;> rfl
    · rfl
  refine ⟨((ofYaml bytes name).run.run fresh).1, ((ofYaml bytes name).run.run fresh).2,
    fun g _ => ?_⟩
  have hload := Yaml.load_behind bytes g.store.heap fresh.heap
  rw [hrun, hrun, show (g.store.behind fresh).heap = g.store.heap.behind fresh.heap from rfl, hload]
  rcases Yaml.load bytes fresh.heap with fault | ⟨s, heap⟩
  · rfl
  · rfl

/-- A document. -/
theorem anew_parse (bytes : List UInt8) (name : String) :
    Anew P (fun _ => parse bytes name) Slot.shift := by
  unfold parse
  split
  · exact anew_ofJson bytes name
  · exact anew_ofYaml bytes name

/-- The mapping of a document. -/
theorem anew_parseMapping (bytes : List UInt8) (name : String) :
    Anew P (fun _ => parseMapping bytes name) Slot.shift := by
  have hother : ∀ s : Slot, Anew P
      (fun g => do
        if (← Act.look (·.entries? (s.shift g.size))).isSome then return s.shift g.size
        else malformed name (.notMapping (← Act.look (·.kindName (s.shift g.size)))))
      Slot.shift := by
    intro s
    refine (anew_look (fun n => Option.map (shiftNamed n)) (·.entries? s)
      fun g fresh _ => g.store.heap.entries?_behind fresh s).bind fun es => ?_
    rcases es with _ | es
    · exact (anew_look (fun _ => id) (·.kindName s)
        fun g fresh _ => g.store.heap.kindName_behind fresh s).bind fun kind => anew_throw _ _
    · exact anew_pure Slot.shift s
  unfold parseMapping
  refine (anew_parse bytes name).bind fun s => ?_
  cases s with
  | ref addr => exact hother (.ref addr)
  | atom a =>
    cases a with
    | null => exact anew_alloc (.map []) fun _ => rfl
    | _ => exact hother (.atom _)

end Document

/-! ## Building -/

namespace Shape

open Act (Anew anew_pure anew_throw anew_look anew_alloc anew_store anew_ofExcept)

variable {P : Ground → Prop}

/-- The arguments of entries that lead further on. -/
theorem arguments_shiftNamed (n : Nat) (es : Entries Slot) :
    arguments (shiftNamed n es) = (arguments es).map (shiftNamed n) := by
  unfold arguments
  induction es with
  | nil => rfl
  | cons e es ih =>
    obtain ⟨k, s⟩ := e
    rw [shiftNamed, List.map_cons, List.mapM_cons, List.mapM_cons, ← shiftNamed, ih]
    dsimp only
    rcases argumentName? k with _ | name
    · rfl
    · rcases es.mapM _ with fault | args <;> rfl

/-- The names of arguments that lead further on. -/
theorem names_shiftNamed {κ : Type} (n : Nat) (args : List (κ × Slot)) :
    (shiftNamed n args).map Prod.fst = args.map Prod.fst := by
  simp [shiftNamed]

/-- What is looked up among arguments that lead further on. -/
theorem lookup_shiftNamed (n : Nat) (args : List (String × Slot)) (name : String) :
    (shiftNamed n args).lookup name = (args.lookup name).map (Slot.shift n) := by
  induction args with
  | nil => rfl
  | cons arg args ih =>
    obtain ⟨k, s⟩ := arg
    rw [shiftNamed, List.map_cons, List.lookup_cons, List.lookup_cons, ← shiftNamed, ih]
    split <;> rfl

/-- The arguments that a shape is called with. -/
theorem anew_argumentsFor (shape : Shape) (es : Entries Slot) :
    Anew P (fun g => argumentsFor shape (shiftNamed g.size es)) shiftNamed := by
  unfold argumentsFor
  simp only [arguments_shiftNamed]
  rcases arguments es with fault | args
  · exact anew_throw _ _
  · exact anew_pure shiftNamed args

/-- The arguments of a call. -/
theorem anew_callWith (shape : Shape) (signature : Signature) (es : Entries Slot) :
    Anew P (fun g => callWith shape signature (shiftNamed g.size es)) shiftNamed := by
  unfold callWith
  refine (anew_argumentsFor shape es).bind fun args => ?_
  simp only [names_shiftNamed]
  rcases signature.fault? (args.map Prod.fst) with _ | fault
  · exact anew_pure shiftNamed args
  · exact anew_throw _ _

/-- What a function answers with. -/
theorem anew_answerOf (f : FunctionShape) (args : List (String × Slot)) :
    Anew P (fun g => answerOf f (shiftNamed g.size args)) Slot.shift := by
  have hslot : ∀ n (t : Term), termSlot (shiftNamed n args) t = (termSlot args t).shift n := by
    intro n t
    unfold termSlot
    rcases t.argument with _ | name
    · rfl
    · rw [Option.bind_some, Option.bind_some, lookup_shiftNamed]
      rcases args.lookup name with _ | s <;> rfl
  unfold answerOf
  rcases f.body with e | terms
  · exact anew_throw _ _
  · refine anew_alloc (.map (terms.map fun e => (e.1, termSlot args e.2))) fun g => ?_
    refine congrArg Cell.map (Eq.trans ?_ (List.map_map ..).symm)
    exact List.map_congr_left fun e _ => congrArg (Prod.mk e.1) (hslot g.size e.2)

/-- The fields of a new record. -/
theorem anew_fieldSlots (args : List (String × Slot)) (fields : List Field) :
    Anew P (fun g => fieldSlots (shiftNamed g.size args) fields) shiftNamed := by
  induction fields with
  | nil => exact anew_pure shiftNamed []
  | cons f rest ih =>
    have hgiven : ∀ n, (if f.isParameter then (shiftNamed n args).lookup f.name else none) =
        (if f.isParameter then args.lookup f.name else none).map (Slot.shift n) := by
      intro n
      split
      · exact lookup_shiftNamed n args f.name
      · rfl
    unfold fieldSlots
    simp only [hgiven]
    rcases (if f.isParameter then args.lookup f.name else none) with _ | s
    · rcases f.default with _ | v
      · exact ih
      · exact (anew_store v).bind fun s => ih.bind fun fs =>
          anew_pure shiftNamed ((f.name, s) :: fs)
    · exact ih.bind fun fs => anew_pure shiftNamed ((f.name, s) :: fs)

/-- A new record. -/
theorem anew_buildRecord (r : RecordShape) (es : Entries Slot) :
    Anew P (fun g => buildRecord r (shiftNamed g.size es)) Slot.shift := by
  have hnames : ∀ n, unknownNames r (shiftNamed n es) = unknownNames r es := by
    intro n
    unfold unknownNames
    rw [Entries.keys_shiftNamed]
  unfold buildRecord
  simp only [hnames]
  refine (anew_ofExcept _).bind fun unknown => ?_
  dsimp only [id]
  split
  · exact anew_throw _ (.misuse (.unknownFields r.name unknown))
  · refine (anew_callWith _ _ es).bind fun args => (anew_fieldSlots args _).bind fun fields => ?_
    rcases r.rejection with _ | e
    · exact anew_alloc (.object r.name fields) fun g => rfl
    · exact anew_throw _ _

/-- What a mapping is made into. -/
theorem anew_build (shape : Shape) (data : Slot) :
    Anew P (fun g => shape.build (data.shift g.size)) Slot.shift := by
  unfold build
  refine (anew_look (fun n => Option.map (shiftNamed n)) (·.entries? data)
    fun g fresh _ => g.store.heap.entries?_behind fresh data).bind fun es => ?_
  rcases es with _ | es
  · exact (anew_look (fun _ => id) (·.kindName data)
      fun g fresh _ => g.store.heap.kindName_behind fresh data).bind fun kind => anew_throw _ _
  · cases shape with
    | mapping =>
      exact (anew_argumentsFor _ es).bind fun args => anew_alloc (.map es) fun g => rfl
    | openObject =>
      exact (anew_argumentsFor _ es).bind fun args => anew_alloc (.object _ args) fun g => rfl
    | function f => exact (anew_callWith _ _ es).bind fun args => anew_answerOf f args
    | record r => exact anew_buildRecord r es

end Shape

/-! ## Loading -/

namespace Resolver

open Act (Anew anew_pure anew_throw onlyTells_tell)

variable {P : Ground → Prop} (r : Resolver) (t : FileTree) (name hint : String)

/-- The mapping of a stream. -/
theorem anew_mappingOf (s : Stream) (filename : String) (bytes : List UInt8) :
    Anew P (fun _ => mappingOf s filename bytes) Slot.shift := by
  unfold mappingOf
  refine (Document.anew_parseMapping bytes filename).tryCatch fun e => ?_
  cases e with
  | malformed m => exact (onlyTells_tell ..).anew.bind fun _ => anew_throw _ _
  | _ => exact anew_throw _ _

/-- The mapping in a file. -/
theorem anew_load (filename : String) :
    Anew P (fun _ => r.load t filename hint) fun n => Option.map (Slot.shift n) := by
  have hlocate : (r.search.locate t filename hint).OnlyTells :=
    ⟨_, _, r.search.tells_locate t filename hint⟩
  unfold load
  refine hlocate.anew.bind fun found => ?_
  rcases found with _ | ⟨name, refusal | bytes⟩
  · exact anew_pure (fun n => Option.map (Slot.shift n)) none
  · exact (onlyTells_tell ..).anew.bind fun _ =>
      anew_pure (fun n => Option.map (Slot.shift n)) none
  · exact (anew_mappingOf _ filename bytes).bind fun config =>
      anew_pure (fun n => Option.map (Slot.shift n)) (some config)

/-- The mapping in the first file of a name. -/
theorem anew_loadFirst (extensions : List String) :
    Anew P (fun _ => r.loadFirst t name hint extensions) fun n => Option.map (Slot.shift n) := by
  induction extensions with
  | nil => exact anew_pure (fun n => Option.map (Slot.shift n)) none
  | cons e rest ih =>
    unfold loadFirst
    refine (r.anew_load t hint (name ++ e)).bind fun found => ?_
    rcases found with _ | config
    · exact ih
    · exact anew_pure (fun n => Option.map (Slot.shift n)) (some config)

end Resolver
end Stratum
