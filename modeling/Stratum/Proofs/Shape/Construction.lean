import Mathlib.Data.List.Nodup
import Stratum.Proofs.Shape
import Stratum.Proofs.Shape.Calls

/-!
# Records and their constructors

Making a mapping into a record is calling the constructor of the record with the entries of the
mapping, behind a check of the keys. The check asks for the fields of the record and not for the
parameters of its constructor: a parameter that is no field is reported as an unknown field when it
is given (`Shape.build_by_construct`). In all other cases the outcome is that of the call, with
failures that concern the call reported as misuse (`Shape.run_buildRecord_of_accepted`).
-/

namespace Stratum

namespace Shape

variable {r : RecordShape} {es : Entries Slot} {data : Slot} {st : Store} {k : Atom}

/-! ## Calling the constructor -/

/-- Whether a key is the name of a parameter of a record's constructor. -/
def isParameterName (r : RecordShape) : Atom → Bool
  | .text name => (recordSignature r).accepts name
  | _ => false

/-- Whether a key is the name of a parameter that is no field of the record. -/
def isOnlyParameterName (r : RecordShape) : Atom → Bool
  | .text name => r.fields.any fun f => f.onlyParameter && f.name == name
  | _ => false

/-- The entries of a mapping as the arguments of a record's constructor. A text that cannot be
written names no parameter. -/
def constructorArguments (r : RecordShape) (es : Entries Slot) :
    Except CallFault (List (String × Slot)) := do
  let args ← arguments es
  match es.keys.find? (!isParameterName r ·) with
  | some (.brokenText b) => .error (.unexpected (recordSignature r).name b.written)
  | _ =>
    match (recordSignature r).fault? (args.map Prod.fst) with
    | some fault => .error fault
    | none => .ok args

/-- A new record of arguments that fit, or the error of its own constructor. -/
def newRecord (r : RecordShape) (args : List (String × Slot)) : Act Slot := do
  let fields ← fieldSlots args (r.fields.filter (!·.onlyParameter))
  match r.rejection with
  | some e => throw (.host e)
  | none =>
    Act.make fun h =>
      let (addr, h) := h.alloc (.object r.name fields)
      (.ref addr, h)

/-- Calls the constructor of a record with the entries of a mapping. -/
def construct (r : RecordShape) (es : Entries Slot) : Act Slot :=
  match constructorArguments r es with
  | .error fault => throw (.badCall fault)
  | .ok args => newRecord r args

/-- A failure of a call as it is passed on: what concerns the call is a misuse of the record. -/
def reworded (r : RecordShape) : Failure → Failure
  | .badCall fault => .misuse (.badCall r.name fault)
  | .host e => if e.kind = .type then .misuse (.badValue r.name e) else .host e
  | e => e

/-! ## Names of parameters -/

/-- A key names a parameter if it is the name of a field that the constructor takes. -/
theorem isParameterName_iff : isParameterName r k = true ↔
    ∃ f ∈ r.fields, (f.isParameter = true ∨ f.onlyParameter = true) ∧ k = .text f.name := by
  cases k with
  | text name =>
    simp [isParameterName, Signature.accepts, recordSignature, parameterFields,
      eq_comm (a := name)]
  | _ => simp [isParameterName]

/-- A key names a mere parameter if it is the name of one. -/
theorem isOnlyParameterName_iff : isOnlyParameterName r k = true ↔
    ∃ f ∈ r.fields, f.onlyParameter = true ∧ k = .text f.name := by
  cases k with
  | text name => simp [isOnlyParameterName, eq_comm (a := name)]
  | _ => simp [isOnlyParameterName]

/-- Names of parameters are names that a record takes or names of mere parameters. -/
theorem isParameterName_eq : isParameterName r k = (isAccepted r k || isOnlyParameterName r k) := by
  rw [Bool.eq_iff_iff, Bool.or_eq_true, isParameterName_iff, isAccepted_iff,
    isOnlyParameterName_iff]
  constructor
  · rintro ⟨f, hf, hkind, hk⟩
    cases honly : f.onlyParameter with
    | true => exact .inr ⟨f, hf, honly, hk⟩
    | false => exact .inl ⟨f, hf, hkind.resolve_right (honly ▸ Bool.false_ne_true), honly, hk⟩
  · rintro (⟨f, hf, hparameter, -, hk⟩ | ⟨f, hf, honly, hk⟩)
    · exact ⟨f, hf, .inl hparameter, hk⟩
    · exact ⟨f, hf, .inr honly, hk⟩

/-- A record that has one field of a name takes the names of parameters but those of mere ones. -/
theorem isAccepted_eq_false_iff (hnames : (r.fields.map (·.name)).Nodup) :
    isAccepted r k = false ↔ isParameterName r k = false ∨ isOnlyParameterName r k = true := by
  have hmere (hname : isOnlyParameterName r k = true) : isAccepted r k = false := by
    obtain ⟨f, hf, honly, rfl⟩ := isOnlyParameterName_iff.1 hname
    rw [Bool.eq_false_iff]
    intro haccepted
    obtain ⟨g, hg, -, hfield, hname⟩ := isAccepted_iff.1 haccepted
    obtain rfl : f = g := List.inj_on_of_nodup_map hnames hf hg (Atom.text.inj hname)
    exact Bool.false_ne_true (hfield.symm.trans honly)
  rw [isParameterName_eq]
  cases honly : isOnlyParameterName r k with
  | true => simp [hmere honly]
  | false => simp

/-- The entries of a mapping are arguments if a record takes every key. -/
theorem exists_entriesOf_of_accepted (h : strangers r es = []) : ∃ args, es = entriesOf args := by
  refine exists_entriesOf fun k hk => ?_
  obtain ⟨f, -, -, -, hname⟩ := isAccepted_iff.1 (strangers_eq_nil_iff.1 h k hk)
  exact ⟨f.name, hname⟩

/-- Arguments are taken by a constructor as its signature says. -/
theorem constructorArguments_entriesOf (args : List (String × Slot)) :
    constructorArguments r (entriesOf args) =
      match (recordSignature r).fault? (args.map Prod.fst) with
      | some fault => .error fault
      | none => .ok args := by
  rw [constructorArguments, arguments_entriesOf]
  show (match (entriesOf args).keys.find? (!isParameterName r ·) with
    | some (.brokenText b) => _
    | _ => _) = _
  split
  · rename_i b hfind
    have hmem := List.mem_of_find?_eq_some hfind
    simp [entriesOf, Entries.keys] at hmem
  · rfl

/-- A mapping has arguments if each of its keys names one. -/
theorem argumentName?_of_arguments {args : List (String × Slot)} (h : arguments es = .ok args) :
    ∀ k ∈ es.keys, ∃ name ∈ args.map Prod.fst, argumentName? k = some name := by
  unfold arguments at h
  obtain ⟨args', hargs, hall⟩ | ⟨e, -, fault, -, hfails⟩ := mapM_cases _ es
  · obtain rfl := Except.ok.inj (hargs.symm.trans h)
    clear hargs h
    induction hall with
    | nil => exact fun _ hk => absurd hk List.not_mem_nil
    | @cons e arg es args hfirst _ ih =>
      have hname : argumentName? e.1 = some arg.1 := by
        dsimp only at hfirst
        split at hfirst
        · rename_i name hname
          obtain rfl := Except.ok.inj hfirst
          exact hname
        · cases hfirst
      refine List.forall_mem_cons.mpr ⟨⟨arg.1, List.mem_cons_self, hname⟩, fun k hk => ?_⟩
      obtain ⟨name, hmem, hk⟩ := ih k hk
      exact ⟨name, List.mem_cons_of_mem _ hmem, hk⟩
  · cases hfails.symm.trans h

/-- A constructor takes no mapping with a key that names no parameter. -/
theorem isParameterName_of_constructorArguments {args : List (String × Slot)}
    (h : constructorArguments r es = .ok args) : ∀ k ∈ es.keys, isParameterName r k = true := by
  unfold constructorArguments at h
  rcases hargs : arguments es with fault | args'
  · rw [hargs] at h
    cases h
  · rw [hargs] at h
    dsimp only [bind, Except.bind] at h
    -- The first key that names no parameter is at fault, as a broken text or by its name.
    rcases hfind : es.keys.find? (!isParameterName r ·) with _ | k
    · simpa using hfind
    · have hk : isParameterName r k = false := by simpa using List.find?_some hfind
      obtain ⟨name, hmem, hname⟩ :=
        argumentName?_of_arguments hargs k (List.mem_of_find?_eq_some hfind)
      rw [hfind] at h
      cases k with
      | text s =>
        obtain rfl := Option.some.inj hname
        dsimp only at h
        split at h
        · cases h
        · rename_i hfits
          have haccepts := (Signature.fault?_eq_none_iff.1 hfits).1 s hmem
          cases haccepts.symm.trans hk
      | brokenText b => cases h
      | _ => cases hname

/-! ## The check before the call -/

/-- A look for the entries of a mapping. -/
theorem run_look_entries? {found : Option (Entries Slot)} (h : st.heap.entries? data = found) :
    (Act.look (·.entries? data)).run.run st = (.ok found, st) := by
  rw [← h]
  rfl

/-- A mapping is made into a record as its entries are. -/
theorem run_build_record (hes : st.heap.entries? data = some es) :
    (build (.record r) data).run.run st = (buildRecord r es).run.run st := by
  rw [build, Act.run_bind, run_look_entries? hes]

/-- A record that takes every key reports none. -/
theorem unknownNames_of_accepted (h : strangers r es = []) : unknownNames r es = .ok [] := by
  obtain ⟨names, hnames, hlength, -⟩ | ⟨⟨k, hk, -⟩, -⟩ := unknownNames_cases r es
  · rw [h] at hlength
    rwa [List.eq_nil_of_length_eq_zero hlength] at hnames
  · rw [h] at hk
    cases hk

/-- Keys that a record takes are let through: the outcome is that of the call, with its failure
reworded. -/
theorem run_buildRecord_of_accepted (h : strangers r es = []) (st : Store) :
    (buildRecord r es).run.run st =
      ((construct r es).run.run st).map (·.mapError (reworded r)) id := by
  obtain ⟨args, rfl⟩ := exists_entriesOf_of_accepted h
  rw [buildRecord, unknownNames_of_accepted h, construct, constructorArguments_entriesOf]
  show (callWith (.record r) (recordSignature r) (entriesOf args) >>= _).run.run st = _
  rw [callWith, argumentsFor, arguments_entriesOf]
  show ((match (recordSignature r).fault? (args.map Prod.fst) with
    | some fault => throw _
    | none => pure args : Act _) >>= _).run.run st = _
  rcases (recordSignature r).fault? (args.map Prod.fst) with _ | fault
  · -- The fields are made alike, and then only an error of the constructor tells the two apart.
    show (fieldSlots args (r.fields.filter (!·.onlyParameter)) >>= _).run.run st = _
    dsimp only
    rw [newRecord, Act.run_bind, Act.run_bind]
    rcases hfields : (fieldSlots args (r.fields.filter (!·.onlyParameter))).run.run st with
      ⟨e | fields, st'⟩
    · exact (failsAs_fieldSlots (P := fun _ => False) args _ st e st' hfields).elim
    · dsimp only
      rcases r.rejection with _ | e
      · rfl
      · have hreworded : reworded r (.host e) = rejected r.name e := rfl
        show _ = (Except.error (reworded r (.host e)), st')
        rw [hreworded]
        rfl
  · rfl

/-- Keys that a record does not take are reported before the call, or the number that one of them is
or holds is too long to be written. -/
theorem run_buildRecord_of_strangers (h : strangers r es ≠ []) (st : Store) :
    (∃ names, names.Perm ((strangers r es).filterMap reportText?) ∧
        (∀ k ∈ strangers r es, ¬ k.HoldsLong) ∧
          (buildRecord r es).run.run st = (.error (.misuse (.unknownFields r.name names)), st)) ∨
      (∃ k ∈ strangers r es, k.HoldsLong) ∧
        (buildRecord r es).run.run st = (.error (.number .tooLongToWrite), st) := by
  unfold buildRecord
  obtain ⟨names, hnames, hlength, hperm, hshort⟩ | ⟨hlong, herror⟩ := unknownNames_cases r es
  · left
    refine ⟨names, hperm, hshort, ?_⟩
    rw [hnames]
    cases names with
    | nil => exact absurd (List.eq_nil_of_length_eq_zero hlength.symm) h
    | cons name names => rfl
  · right
    refine ⟨hlong, ?_⟩
    rw [herror]
    rfl

/-! ## Records by their constructors -/

/-- A text is reported as it is. -/
@[simp] theorem reportText?_text (name : String) : reportText? (.text name) = some name := by
  simp [reportText?, Atom.display, Text.codePoints, Except.toOption]

/-- A key that names an argument is no long number. -/
theorem not_holdsLong_of_argumentName? (h : (argumentName? k).isSome = true) : ¬ k.HoldsLong := by
  intro hlong
  cases hlong <;> cases h

/-- A key that names a parameter names an argument. -/
theorem isSome_argumentName? (h : isParameterName r k = true) :
    (argumentName? k).isSome = true := by
  obtain ⟨f, -, -, rfl⟩ := isParameterName_iff.1 h
  rfl

/-- Texts that a record does not take are reported, as none of them is a long number. -/
theorem run_buildRecord_of_texts (htexts : ∀ k ∈ es.keys, (argumentName? k).isSome = true)
    (h : strangers r es ≠ []) (st : Store) :
    ∃ names, names.Perm ((strangers r es).filterMap reportText?) ∧
      (buildRecord r es).run.run st = (.error (.misuse (.unknownFields r.name names)), st) := by
  obtain ⟨names, hperm, -, hrun⟩ | ⟨⟨k, hk, hlong⟩, -⟩ := run_buildRecord_of_strangers h st
  · exact ⟨names, hperm, hrun⟩
  · exact absurd hlong (not_holdsLong_of_argumentName? (htexts k (mem_strangers.1 hk).1))

/-- A constructor that ends well was called with names of parameters. -/
theorem isParameterName_of_construct {s : Slot} {st' : Store}
    (h : (construct r es).run.run st = (.ok s, st')) :
    ∀ k ∈ es.keys, isParameterName r k = true := by
  unfold construct at h
  rcases hargs : constructorArguments r es with fault | args
  · rw [hargs] at h
    cases congrArg Prod.fst h
  · exact isParameterName_of_constructorArguments hargs

/-- A constructor does not report unknown fields, however its failure is reworded. -/
theorem failsAs_construct (r : RecordShape) (es : Entries Slot) : (construct r es).FailsAs
    fun e => ∀ shape names, reworded r e ≠ .misuse (.unknownFields shape names) := by
  unfold construct
  split
  · exact Act.failsAs_throw fun _ _ h => nomatch h
  · refine (failsAs_fieldSlots _ _).bind fun fields => ?_
    split
    · rename_i e _
      refine Act.failsAs_throw fun shape names h => ?_
      dsimp only [reworded] at h
      split at h <;> cases h
    · exact Act.failsAs_make _

section Names

variable {s : Slot} {st' : Store} (hnames : (r.fields.map (·.name)).Nodup)

include hnames

/-- The keys that a record does not take are those that name no parameter or a mere one. -/
theorem mem_strangers_iff : k ∈ strangers r es ↔
    k ∈ es.keys ∧ (isParameterName r k = false ∨ isOnlyParameterName r k = true) := by
  rw [mem_strangers, isAccepted_eq_false_iff hnames]

/-- What a constructor makes of a mapping that names no mere parameter is made of it. -/
theorem buildRecord_of_construct (hmade : (construct r es).run.run st = (.ok s, st'))
    (hfields : ∀ k ∈ es.keys, isOnlyParameterName r k = false) :
    (buildRecord r es).run.run st = (.ok s, st') := by
  have hnone : strangers r es = [] := by
    refine List.eq_nil_iff_forall_not_mem.mpr fun k hk => ?_
    obtain ⟨hkey, hnot | honly⟩ := (mem_strangers_iff hnames).1 hk
    · exact Bool.false_ne_true (hnot.symm.trans (isParameterName_of_construct hmade k hkey))
    · exact Bool.false_ne_true ((hfields k hkey).symm.trans honly)
  rw [run_buildRecord_of_accepted hnone, hmade]
  rfl

/-- Of a mapping that a constructor takes and that names mere parameters, these are reported. -/
theorem buildRecord_of_mereParameter (hmade : (construct r es).run.run st = (.ok s, st'))
    (hmere : ∃ k ∈ es.keys, isOnlyParameterName r k = true) : ∃ names : List String,
      (∀ name, name ∈ names ↔
        .text name ∈ es.keys ∧ isOnlyParameterName r (.text name) = true) ∧
      (buildRecord r es).run.run st = (.error (.misuse (.unknownFields r.name names)), st) := by
  have hparameters := isParameterName_of_construct hmade
  obtain ⟨k, hk, honly⟩ := hmere
  have hsome : strangers r es ≠ [] :=
    List.ne_nil_of_mem ((mem_strangers_iff hnames).2 ⟨hk, .inr honly⟩)
  obtain ⟨names, hperm, hrun⟩ := run_buildRecord_of_texts
    (fun j hj => isSome_argumentName? (hparameters j hj)) hsome st
  refine ⟨names, fun name => ?_, hrun⟩
  rw [hperm.mem_iff, List.mem_filterMap]
  constructor
  · rintro ⟨j, hj, hname⟩
    obtain ⟨hkey, hnot | honly⟩ := (mem_strangers_iff hnames).1 hj
    · cases hnot.symm.trans (hparameters j hkey)
    · obtain ⟨f, -, -, rfl⟩ := isOnlyParameterName_iff.1 honly
      obtain rfl := Option.some.inj ((reportText?_text f.name).symm.trans hname)
      exact ⟨hkey, honly⟩
  · rintro ⟨hkey, honly⟩
    exact ⟨_, (mem_strangers_iff hnames).2 ⟨hkey, .inr honly⟩, reportText?_text name⟩

end Names

/-- A record is made of texts and what stands under them only if its constructor makes it. -/
theorem construct_of_buildRecord {s : Slot} {st' : Store}
    (htexts : ∀ k ∈ es.keys, (argumentName? k).isSome = true)
    (hmade : (buildRecord r es).run.run st = (.ok s, st')) :
    (construct r es).run.run st = (.ok s, st') := by
  by_cases hnone : strangers r es = []
  · rw [run_buildRecord_of_accepted hnone] at hmade
    rcases hconstruct : (construct r es).run.run st with ⟨e | s', st₁⟩
    · rw [hconstruct] at hmade
      cases congrArg Prod.fst hmade
    · rw [hconstruct] at hmade
      exact hmade
  · obtain ⟨names, -, hrun⟩ := run_buildRecord_of_texts htexts hnone st
    cases congrArg Prod.fst (hrun.symm.trans hmade)

/-- What is reported of texts as unknown are those that a record does not take. -/
theorem unknown_of_buildRecord {shape : String} {names : List String} {st' : Store}
    (htexts : ∀ k ∈ es.keys, (argumentName? k).isSome = true)
    (hunknown : (buildRecord r es).run.run st =
      (.error (.misuse (.unknownFields shape names)), st')) :
    shape = r.name ∧ st' = st ∧ names.Perm ((strangers r es).filterMap reportText?) := by
  by_cases hnone : strangers r es = []
  · rw [run_buildRecord_of_accepted hnone] at hunknown
    rcases hconstruct : (construct r es).run.run st with ⟨e | s', st₁⟩
    · rw [hconstruct] at hunknown
      exact absurd (Except.error.inj (congrArg Prod.fst hunknown))
        (failsAs_construct r es st e st₁ hconstruct shape names)
    · rw [hconstruct] at hunknown
      cases congrArg Prod.fst hunknown
  · obtain ⟨names', hperm, hrun⟩ := run_buildRecord_of_texts htexts hnone st
    obtain ⟨herror, rfl⟩ := Prod.mk.inj (hrun.symm.trans hunknown)
    obtain ⟨rfl, rfl⟩ :=
      Misuse.unknownFields.inj (Failure.misuse.inj (Except.error.inj herror))
    exact ⟨rfl, rfl, hperm⟩

/-- A record whose fields have different names is made of a mapping with texts as keys as its
constructor makes it. What the constructor makes of a mapping that names no mere parameter is made;
if the mapping names some, then exactly these are reported as unknown fields, and nothing is done.
Nothing is made that the constructor does not make, and what is reported as unknown are the texts of
the keys that name no parameter or a mere one. -/
theorem build_by_construct (hnames : (r.fields.map (·.name)).Nodup)
    (hes : st.heap.entries? data = some es)
    (htexts : ∀ k ∈ es.keys, (argumentName? k).isSome = true) :
    (∀ s st', (construct r es).run.run st = (.ok s, st') →
      ((∀ k ∈ es.keys, isOnlyParameterName r k = false) →
        (build (.record r) data).run.run st = (.ok s, st')) ∧
      ((∃ k ∈ es.keys, isOnlyParameterName r k = true) → ∃ names : List String,
        (∀ name, name ∈ names ↔
          .text name ∈ es.keys ∧ isOnlyParameterName r (.text name) = true) ∧
        (build (.record r) data).run.run st =
          (.error (.misuse (.unknownFields r.name names)), st))) ∧
    (∀ s st', (build (.record r) data).run.run st = (.ok s, st') →
      (construct r es).run.run st = (.ok s, st')) ∧
    ∀ shape names st', (build (.record r) data).run.run st =
        (.error (.misuse (.unknownFields shape names)), st') →
      shape = r.name ∧ st' = st ∧ ∃ keys : List Atom, names.Perm (keys.filterMap reportText?) ∧
        ∀ k, k ∈ keys ↔
          k ∈ es.keys ∧ (isParameterName r k = false ∨ isOnlyParameterName r k = true) := by
  rw [run_build_record hes]
  refine ⟨fun s st' hmade => ⟨buildRecord_of_construct hnames hmade,
    buildRecord_of_mereParameter hnames hmade⟩, fun s st' => construct_of_buildRecord htexts,
    fun shape names st' hunknown => ?_⟩
  obtain ⟨hshape, hst, hperm⟩ := unknown_of_buildRecord htexts hunknown
  exact ⟨hshape, hst, strangers r es, hperm, fun k => mem_strangers_iff hnames⟩

end Shape

/-! A record with a parameter that is no field. -/
namespace Seeded

/-- A field and a seed that the constructor takes besides it. -/
def shape : RecordShape :=
  ⟨"Seeded", [⟨"a", none, true, false, false⟩, ⟨"seed", some (.atom (.int 5)), true, false, true⟩],
    none⟩

/-- The field alone. -/
def unseeded : Entries Slot := [(.text "a", .atom (.int 1))]

/-- The field with the seed. -/
def seeded : Entries Slot := [(.text "a", .atom (.int 1)), (.text "seed", .atom (.int 2))]

/-- A mapping at hand. -/
def store (es : Entries Slot) : Store := ⟨⟨#[.map es]⟩, []⟩

/-- The record made of a mapping. -/
def made (es : Entries Slot) : Store :=
  ⟨⟨#[.map es, .object "Seeded" [("a", .atom (.int 1))]]⟩, []⟩

/-- The record is made of the field alone as its constructor makes it. -/
theorem unseeded_built : (Shape.construct shape unseeded).run.run (store unseeded) =
      (.ok (.ref 1), made unseeded) ∧
    (Shape.build (.record shape) (.ref 0)).run.run (store unseeded) =
      (.ok (.ref 1), made unseeded) :=
  have hmade : (Shape.construct shape unseeded).run.run (store unseeded) =
    (.ok (.ref 1), made unseeded) := rfl
  ⟨hmade, ((Shape.build_by_construct (by decide) rfl (by decide)).1 _ _ hmade).1 (by decide)⟩

/-- The constructor takes the seed, and making the mapping into the record reports it as unknown. -/
theorem seed_unknown : (Shape.construct shape seeded).run.run (store seeded) =
      (.ok (.ref 1), made seeded) ∧
    Shape.isParameterName shape (.text "seed") = true ∧
    (Shape.build (.record shape) (.ref 0)).run.run (store seeded) =
      (.error (.misuse (.unknownFields "Seeded" ["seed"])), store seeded) :=
  ⟨rfl, rfl, rfl⟩

end Seeded
end Stratum
