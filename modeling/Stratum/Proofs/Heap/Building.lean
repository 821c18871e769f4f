import Stratum.Proofs.Act
import Stratum.Proofs.Heap.Store
import Stratum.Shape

/-!
# Building objects

Making a mapping into a shape makes cells and changes none. The object leads to new cells and to
those that the mapping leads to, and so do the values that it is called with.
-/

namespace Stratum

namespace Act

variable {α β : Type} {given : List Slot} {leads : α → List Slot} {a : α}

/-- An act makes cells and changes none, and the slots of its answer lead to new cells and to those
only that the given slots lead to. -/
def Grows (given : List Slot) (act : Act α) (leads : α → List Slot) : Prop :=
  ∀ st R, st.heap.IsDomain R → (∀ s ∈ given, s.In R) →
    ∃ R', Heap.Grown st.heap (act.run.run st).2.heap R R' ∧
      ∀ a, (act.run.run st).1 = .ok a → ∀ s ∈ leads a, s.In R'

/-- An answer of given slots makes nothing. -/
theorem grows_pure (h : ∀ s ∈ leads a, s ∈ given) : Grows given (pure a) leads := by
  intro st R hR hgiven
  refine ⟨R, hR.grown, ?_⟩
  rintro b ⟨⟩ s hs
  exact hgiven s (h s hs)

/-- A failure makes nothing. -/
theorem grows_throw (e : Failure) : Grows given (throw e : Act α) leads := by
  intro st R hR _
  refine ⟨R, hR.grown, ?_⟩
  rintro b ⟨⟩

/-- An answer that may be a failure makes nothing. -/
theorem grows_ofExcept {r : Except Failure α} (h : ∀ a, r = .ok a → ∀ s ∈ leads a, s ∈ given) :
    Grows given (ofExcept r) leads := by
  cases r with
  | ok a => exact grows_pure (h a rfl)
  | error e => exact grows_throw e

/-- A reading of the heap without slots makes nothing. -/
theorem grows_look (f : Heap → α) : Grows given (look f) fun _ => [] := by
  intro st R hR _
  exact ⟨R, hR.grown, fun _ _ _ hs => absurd hs List.not_mem_nil⟩

/-- The entries of a mapping lead to what it leads to. -/
theorem grows_look_entries {data : Slot} (h : data ∈ given) :
    Grows given (look (·.entries? data)) fun es => (es.getD []).map Prod.snd := by
  intro st R hR hgiven
  have hin : ∀ s ∈ ((st.heap.entries? data).getD []).map Prod.snd, s.In R := by
    rcases hentries : st.heap.entries? data with _ | es
    · exact fun s hs => absurd hs List.not_mem_nil
    · exact List.forall_mem_map.mpr (hR.entries (hgiven data h) hentries)
  refine ⟨R, hR.grown, ?_⟩
  rintro b ⟨⟩
  exact hin

/-- A new cell that leads to where the given slots do. -/
theorem grows_make_alloc {c : Cell} (h : ∀ R, (∀ s ∈ given, s.In R) → ∀ s ∈ c.slots, s.In R) :
    Grows given (make fun heap => (.ref (heap.alloc c).1, (heap.alloc c).2)) fun s => [s] := by
  intro st R hR hgiven
  refine ⟨_, hR.grown_alloc (h R hgiven), ?_⟩
  rintro b ⟨⟩ s hs
  obtain rfl := List.mem_singleton.mp hs
  exact Set.mem_insert _ _

/-- The cells of a value. -/
theorem grows_make_store (v : Value) : Grows given (make (·.store v)) fun s => [s] := by
  intro st R hR _
  obtain ⟨R', hg, hin⟩ := Heap.store_grown hR v
  refine ⟨R', hg, ?_⟩
  rintro b ⟨⟩ s hs
  obtain rfl := List.mem_singleton.mp hs
  exact hin

/-- Acts that make cells do so one after the other. -/
theorem Grows.bind {x : Act α} {f : α → Act β} {leads' : β → List Slot} (hx : x.Grows given leads)
    (hf : ∀ a, (f a).Grows (leads a ++ given) leads') : (x >>= f).Grows given leads' := by
  intro st R hR hgiven
  obtain ⟨R₁, hg, hleads⟩ := hx st R hR hgiven
  rw [run_bind]
  rcases hrun : x.run.run st with ⟨e | a, st₁⟩
  all_goals rw [hrun] at hg hleads
  · refine ⟨R₁, hg, ?_⟩
    rintro b ⟨⟩
  · have hgiven' : ∀ s ∈ leads a ++ given, s.In R₁ := fun s hs =>
      (List.mem_append.mp hs).elim (hleads a rfl s) fun hs => (hgiven s hs).mono hg.subset
    obtain ⟨R₂, hg', hleads'⟩ := hf a st₁ R₁ hg.domain hgiven'
    exact ⟨R₂, hg.trans hg', hleads'⟩

end Act

namespace Shape

open Act (Grows grows_pure grows_throw grows_ofExcept grows_look grows_look_entries grows_make_alloc
  grows_make_store)

variable {given : List Slot} {es : Entries Slot} {args : List (String × Slot)}

/-- The arguments of entries have their slots. -/
theorem slots_arguments (h : arguments es = .ok args) : args.map Prod.snd = es.map Prod.snd := by
  unfold arguments at h
  induction es generalizing args with
  | nil =>
    obtain rfl := Except.ok.inj h
    rfl
  | cons e es ih =>
    rw [List.mapM_cons] at h
    rcases hname : argumentName? e.1 with _ | name
    · simp [hname, bind, Except.bind] at h
    · simp only [hname, bind, Except.bind] at h
      split at h
      · cases h
      · rename_i rest hrest
        obtain rfl := Except.ok.inj h
        rw [List.map_cons, List.map_cons, ih hrest]

/-- The arguments that a shape is called with are given slots if the entries are. -/
theorem grows_argumentsFor (shape : Shape) (h : ∀ s ∈ es.map Prod.snd, s ∈ given) :
    (argumentsFor shape es).Grows given fun args => args.map Prod.snd := by
  unfold argumentsFor
  split
  · rename_i args hargs
    exact grows_pure (by rwa [slots_arguments hargs])
  · exact grows_throw _

/-- The arguments of a call that fits are given slots if the entries are. -/
theorem grows_callWith (shape : Shape) (signature : Signature)
    (h : ∀ s ∈ es.map Prod.snd, s ∈ given) :
    (callWith shape signature es).Grows given fun args => args.map Prod.snd := by
  unfold callWith
  refine (grows_argumentsFor shape h).bind fun args => ?_
  split
  · exact grows_throw _
  · exact grows_pure fun s hs => List.mem_append_left _ hs

/-- What is looked up among arguments is the slot of one. -/
theorem mem_of_lookup {name : String} {s : Slot} (h : args.lookup name = some s) :
    s ∈ args.map Prod.snd := by
  obtain ⟨earlier, later, rfl, -⟩ := List.lookup_eq_some_iff.mp h
  simp

/-- What a function answers with leads to given slots. -/
theorem grows_answerOf (f : FunctionShape) (h : ∀ s ∈ args.map Prod.snd, s ∈ given) :
    (answerOf f args).Grows given fun s => [s] := by
  have hslot : ∀ R, (∀ s ∈ given, s.In R) → ∀ t : Term, (termSlot args t).In R := by
    intro R hgiven t
    unfold termSlot
    rcases hlookup : t.argument.bind (args.lookup ·) with _ | s
    · trivial
    · obtain ⟨name, -, hname⟩ := Option.bind_eq_some_iff.mp hlookup
      exact hgiven s (h s (mem_of_lookup hname))
  unfold answerOf
  split
  · exact grows_throw _
  · refine grows_make_alloc fun R hgiven s hs => ?_
    obtain ⟨e, he, rfl⟩ := List.mem_map.mp hs
    obtain ⟨⟨k, t⟩, -, rfl⟩ := List.mem_map.mp he
    exact hslot R hgiven t

/-- The fields of a new record are given slots and copies of defaults. -/
theorem grows_fieldSlots (fields : List Field) (h : ∀ s ∈ args.map Prod.snd, s ∈ given) :
    (fieldSlots args fields).Grows given fun fs => fs.map Prod.snd := by
  induction fields generalizing given with
  | nil => exact grows_pure fun s hs => absurd hs List.not_mem_nil
  | cons f rest ih =>
    unfold fieldSlots
    dsimp only
    split
    · -- A field with a value is an argument.
      rename_i s hgiven
      have hs : s ∈ given := by
        split at hgiven
        · exact h s (mem_of_lookup hgiven)
        · cases hgiven
      refine (ih h).bind fun fs => grows_pure ?_
      exact List.forall_mem_cons.mpr ⟨List.mem_append_right _ hs,
        fun t ht => List.mem_append_left _ ht⟩
    · -- A field without one is a copy of its default, which is new.
      rename_i v hnone hdefault
      refine (grows_make_store v).bind fun s => ?_
      refine (ih fun t ht => List.mem_append_right _ (h t ht)).bind fun fs => grows_pure ?_
      exact List.forall_mem_cons.mpr ⟨List.mem_append_right _ List.mem_cons_self,
        fun t ht => List.mem_append_left _ ht⟩
    · exact ih h

/-- A new record leads to new cells and to given slots. -/
theorem grows_buildRecord (r : RecordShape) (h : ∀ s ∈ es.map Prod.snd, s ∈ given) :
    (buildRecord r es).Grows given fun s => [s] := by
  unfold buildRecord
  have hnames : (Act.ofExcept ((unknownNames r es).mapError .number)).Grows given fun _ => [] :=
    grows_ofExcept fun _ _ _ hs => absurd hs List.not_mem_nil
  refine hnames.bind fun unknown => ?_
  dsimp only [List.nil_append]
  split
  · exact grows_throw (.misuse (.unknownFields r.name unknown))
  · refine (grows_callWith _ _ h).bind fun args => ?_
    refine (grows_fieldSlots _ fun s hs => List.mem_append_left _ hs).bind fun fields => ?_
    split
    · exact grows_throw _
    · exact grows_make_alloc fun R hgiven s hs => hgiven s (List.mem_append_left _ hs)

/-- What a mapping is made into leads to new cells and to what the mapping leads to. -/
theorem grows_build (shape : Shape) (data : Slot) :
    (build shape data).Grows [data] fun s => [s] := by
  unfold build
  refine (grows_look_entries List.mem_cons_self).bind fun es => ?_
  split
  · exact (grows_look _).bind fun kind => grows_throw _
  · rename_i es
    have hes : ∀ s ∈ es.map Prod.snd, s ∈ es.map Prod.snd ++ [data] :=
      fun s hs => List.mem_append_left _ hs
    have hmade {args : List (String × Slot)} : ∀ s ∈ args.map Prod.snd,
        s ∈ args.map Prod.snd ++ (es.map Prod.snd ++ [data]) :=
      fun s hs => List.mem_append_left _ hs
    split
    · refine (grows_argumentsFor _ hes).bind fun args => ?_
      exact grows_make_alloc fun R hgiven s hs => hgiven s (List.mem_append_right _ (hes s hs))
    · refine (grows_argumentsFor _ hes).bind fun args => ?_
      exact grows_make_alloc fun R hgiven s hs => hgiven s (hmade s hs)
    · exact (grows_callWith _ _ hes).bind fun args => grows_answerOf _ hmade
    · exact grows_buildRecord _ hes

end Shape
end Stratum
