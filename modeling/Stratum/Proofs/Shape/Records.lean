import Stratum.Proofs.Heap.ReadBack
import Stratum.Proofs.Overlay.Reading
import Stratum.Proofs.Shape.Construction

/-!
# Mappings into records

Which mappings a record is made of, and what it then holds. A mapping fits a record if its keys are
names of fields that the constructor takes, with all among them that have no default. The record is
made of such a mapping and of no other, with what the mapping gives and its own defaults, and
everything else is reported as misuse (`Shape.record_classified`), but for one thing: the report of
an unknown key fails if the key is or holds a number that is too long to write.
-/

namespace Stratum

/-! ## Fields -/

namespace Field

variable {f : Field} {es : Entries Slot} {size : Nat} {h h' : Heap} {s : Slot}

/-- What a mapping gives for a field that the constructor takes. -/
def given? (f : Field) (es : Entries Slot) : Option Slot :=
  if f.isParameter then es.find? (.text f.name) else none

/-- Whether a record that is made of a mapping has a value in a field. -/
def hasValue (f : Field) (es : Entries Slot) : Bool := (f.given? es).isSome || f.default.isSome

/-- What a field of a record made of a mapping holds: the same object that the mapping gives, else
the default, in cells that no older one leads to. -/
inductive Holds (f : Field) (es : Entries Slot) (size : Nat) (h : Heap) (s : Slot) : Prop
  | given (hgiven : f.given? es = some s) : Holds f es size h s
  | default {v : Value} {R : Set Addr} (hnone : f.given? es = none) (hdefault : f.default = some v)
      (hview : h.view s = v) (hR : h.IsDomain R) (hs : s.In R) (hnew : ∀ addr ∈ R, size ≤ addr) :
      Holds f es size h s

/-- A field goes on holding what it holds while objects are made. -/
theorem Holds.grown {A B : Set Addr} (hholds : f.Holds es size h s) (hg : h.Grown h' A B) :
    f.Holds es size h' s := by
  cases hholds with
  | given hgiven => exact .given hgiven
  | default hnone hdefault hview hR hs hnew =>
    exact .default hnone hdefault ((hg.view_eq hR hs).trans hview) (hg.isDomain hR) hs hnew

/-- Cells that are newer than some are newer than what was there before those. -/
theorem Holds.mono {size' : Nat} (hholds : f.Holds es size h s) (hle : size' ≤ size) :
    f.Holds es size' h s := by
  cases hholds with
  | given hgiven => exact .given hgiven
  | default hnone hdefault hview hR hs hnew =>
    exact .default hnone hdefault hview hR hs fun addr haddr => hle.trans (hnew addr haddr)

end Field

namespace Shape

variable {args : List (String × Slot)} {st : Store}

/-- The fields of a record are made without touching what is there, and each that has a value holds
what it was given, else its default. -/
theorem run_fieldSlots (args : List (String × Slot)) (fields : List Field)
    (hdefaults : ∀ f ∈ fields, ∀ v ∈ f.default, v.Enclosed 0) (st : Store) :
    ∃ fs h', (fieldSlots args fields).run.run st = (.ok fs, ⟨h', st.log⟩) ∧
      st.heap.Grown h' ∅ ∅ ∧
      List.Forall₂
        (fun f e => e.1 = f.name ∧ f.Holds (entriesOf args) st.heap.cells.size h' e.2)
        (fields.filter (·.hasValue (entriesOf args))) fs := by
  induction fields generalizing st with
  | nil => exact ⟨[], st.heap, rfl, st.heap.isDomain_empty.grown, .nil⟩
  | cons f fields ih =>
    obtain ⟨hdefault, hrest⟩ := List.forall_mem_cons.mp hdefaults
    have hgiven : f.given? (entriesOf args) =
        if f.isParameter then args.lookup f.name else none := by
      rw [Field.given?, find?_entriesOf]
    unfold fieldSlots
    dsimp only
    rw [← hgiven, List.filter_cons]
    -- A field takes what is given to it, else its default, else it has no value and is left out.
    rcases hslot : f.given? (entriesOf args) with _ | s
    · rcases hvalue : f.default with _ | v
      · obtain ⟨fs, h', hrun, hg, hholds⟩ := ih hrest st
        refine ⟨fs, h', hrun, hg, ?_⟩
        simpa [Field.hasValue, hslot, hvalue] using hholds
      · -- The default is made first, and the other fields are made behind it.
        obtain ⟨R, hmade, hs⟩ := Heap.store_grown st.heap.isDomain_empty v
        obtain ⟨fs, h', hrun, hg, hholds⟩ := ih hrest ⟨(st.heap.store v).2, st.log⟩
        have hview := Heap.view_store st.heap.isDomain_empty (hdefault v hvalue)
        have hnew : ∀ addr ∈ R, st.heap.cells.size ≤ addr := fun addr haddr =>
          (hmade.new addr haddr).resolve_left (Set.notMem_empty addr)
        have hold := (Field.Holds.default hslot hvalue hview hmade.domain hs hnew).grown hg
        refine ⟨(f.name, (st.heap.store v).1) :: fs, h', ?_,
          (hmade.stay st.heap.isDomain_empty).trans hg, ?_⟩
        · show (Act.make (·.store v) >>= _).run.run st = _
          rw [Act.run_bind]
          show (fieldSlots args fields >>= _).run.run ⟨(st.heap.store v).2, st.log⟩ = _
          rw [Act.run_bind, hrun]
          rfl
        · rw [if_pos (by simp [Field.hasValue, hvalue])]
          exact .cons ⟨rfl, hold⟩
            (hholds.imp fun _ _ h => ⟨h.1, h.2.mono hmade.size_le⟩)
    · obtain ⟨fs, h', hrun, hg, hholds⟩ := ih hrest st
      refine ⟨(f.name, s) :: fs, h', ?_, hg, ?_⟩
      · show (fieldSlots args fields >>= _).run.run st = _
        rw [Act.run_bind, hrun]
        rfl
      · rw [if_pos (by simp [Field.hasValue, hslot])]
        exact .cons ⟨rfl, .given hslot⟩ hholds

end Shape

/-! ## Mappings that fit -/

namespace RecordShape

/-- A record is plain if its constructor takes nothing but fields, its defaults stand alone, and the
constructor does not end with an error of its own. -/
structure Plain (r : RecordShape) : Prop where
  fields : ∀ f ∈ r.fields, f.onlyParameter = false
  defaults : ∀ f ∈ r.fields, ∀ v ∈ f.default, v.Enclosed 0
  sound : r.rejection = none

/-- A mapping fits a record if each key is the name of a field that the constructor takes, and each
such field without a default is a key. -/
structure Fits (r : RecordShape) (es : Entries Slot) : Prop where
  named : ∀ k ∈ es.keys, ∃ f ∈ r.fields, f.isParameter = true ∧ k = .text f.name
  complete : ∀ f ∈ r.fields, f.isParameter = true → f.default = none → .text f.name ∈ es.keys

/-- A new object is a record made of a mapping: each field that has a value holds what the mapping
gives, else its default, there is nothing else in it, and what was there before is as it was. -/
structure MadeAt (r : RecordShape) (es : Entries Slot) (h h' : Heap) (addr : Addr)
    (fields : List (String × Slot)) : Prop where
  new : h.cells.size ≤ addr
  cell : h'.get? addr = some (.object r.name fields)
  holds : List.Forall₂ (fun f e => e.1 = f.name ∧ f.Holds es h.cells.size h' e.2)
    (r.fields.filter (·.hasValue es)) fields
  kept : ∀ other < h.cells.size, h'.get? other = h.get? other

end RecordShape

namespace Shape

variable {r : RecordShape} {es : Entries Slot} {st : Store}

/-- A plain record takes the names of the fields that its constructor takes. -/
theorem strangers_eq_nil_iff_named (hr : r.Plain) : strangers r es = [] ↔
    ∀ k ∈ es.keys, ∃ f ∈ r.fields, f.isParameter = true ∧ k = .text f.name := by
  rw [strangers_eq_nil_iff]
  refine forall₂_congr fun k _ => isAccepted_iff.trans ?_
  constructor
  · rintro ⟨f, hf, hparameter, -, hk⟩
    exact ⟨f, hf, hparameter, hk⟩
  · rintro ⟨f, hf, hparameter, hk⟩
    exact ⟨f, hf, hparameter, hr.fields f hf, hk⟩

/-- Arguments with names of fields fit the constructor of a plain record if they are complete. -/
theorem fault?_eq_none_iff_fits (hr : r.Plain) {args : List (String × Slot)}
    (hnone : strangers r (entriesOf args) = []) :
    (recordSignature r).fault? (args.map Prod.fst) = none ↔ r.Fits (entriesOf args) := by
  have hnames (name : String) : Atom.text name ∈ (entriesOf args).keys ↔ name ∈ args.map Prod.fst :=
    by simp [entriesOf, Entries.keys]
  have hnamed := (strangers_eq_nil_iff_named hr).1 hnone
  rw [Signature.fault?_eq_none_iff]
  constructor
  · rintro ⟨-, hcomplete⟩
    refine ⟨hnamed, fun f hf hparameter hdefault => (hnames f.name).2 ?_⟩
    refine hcomplete ⟨f.name, f.default.isSome, f.keywordOnly⟩ ?_ (by simp [hdefault])
    exact List.mem_map_of_mem (List.mem_filter.mpr ⟨hf, by simp [hparameter]⟩)
  · intro hfits
    refine ⟨fun name hname => ?_, fun p hp hrequired => ?_⟩
    · exact isParameterName_iff.2 (hnamed _ ((hnames name).2 hname) |>.imp
        fun f h => ⟨h.1, .inl h.2.1, h.2.2⟩)
    · obtain ⟨f, hf, rfl⟩ := List.mem_map.mp hp
      obtain ⟨hmem, hkind⟩ := List.mem_filter.mp hf
      have hparameter : f.isParameter = true := by simpa [hr.fields f hmem] using hkind
      have hdefault : f.default = none := by simpa using hrequired
      exact (hnames f.name).1 (hfits.complete f hmem hparameter hdefault)

/-- Making a cell changes none. -/
theorem grown_alloc (h : Heap) (c : Cell) : h.Grown (h.alloc c).2 ∅ ∅ :=
  ⟨by simp, fun _ => h.get?_alloc_of_lt c, subset_rfl, fun _ => .inl, Heap.isDomain_empty _⟩

/-- Of arguments that fit, a plain record is made. -/
theorem run_newRecord (hr : r.Plain) (args : List (String × Slot)) (st : Store) :
    ∃ addr fields h', (newRecord r args).run.run st = (.ok (.ref addr), ⟨h', st.log⟩) ∧
      r.MadeAt (entriesOf args) st.heap h' addr fields := by
  have hfields : r.fields.filter (!·.onlyParameter) = r.fields :=
    List.filter_eq_self.mpr fun f hf => by simp [hr.fields f hf]
  obtain ⟨fields, h', hrun, hg, hholds⟩ := run_fieldSlots args r.fields hr.defaults st
  have halloc := grown_alloc h' (.object r.name fields)
  refine ⟨h'.cells.size, fields, (h'.alloc (.object r.name fields)).2, ?_, hg.size_le,
    h'.get?_alloc _, ?_, (hg.trans halloc).get?_eq⟩
  · rw [newRecord, hfields, Act.run_bind, hrun, hr.sound]
    rfl
  · exact hholds.imp fun _ _ h => ⟨h.1, h.2.grown halloc⟩

/-- A plain record is made of a mapping that fits. -/
theorem run_buildRecord_of_fits (hr : r.Plain) (hfits : r.Fits es) (st : Store) :
    ∃ addr fields h', (buildRecord r es).run.run st = (.ok (.ref addr), ⟨h', st.log⟩) ∧
      r.MadeAt es st.heap h' addr fields := by
  have hnone := (strangers_eq_nil_iff_named hr).2 hfits.named
  obtain ⟨args, rfl⟩ := exists_entriesOf_of_accepted hnone
  have hfault := (fault?_eq_none_iff_fits hr hnone).2 hfits
  obtain ⟨addr, fields, h', hrun, hmade⟩ := run_newRecord hr args st
  refine ⟨addr, fields, h', ?_, hmade⟩
  rw [run_buildRecord_of_accepted hnone, construct, constructorArguments_entriesOf, hfault]
  dsimp only
  rw [hrun]
  rfl

/-- A plain record is not made of a mapping that does not fit, which is reported as misuse unless a
key that the record does not take is or holds a number that is too long to write. -/
theorem run_buildRecord_of_not_fits (hr : r.Plain) (hfits : ¬ r.Fits es) (st : Store) :
    (∃ m, (∀ k ∈ strangers r es, ¬ k.HoldsLong) ∧
        (buildRecord r es).run.run st = (.error (.misuse m), st)) ∨
      (∃ k ∈ strangers r es, k.HoldsLong) ∧
        (buildRecord r es).run.run st = (.error (.number .tooLongToWrite), st) := by
  by_cases hnone : strangers r es = []
  · obtain ⟨args, rfl⟩ := exists_entriesOf_of_accepted hnone
    obtain ⟨fault, hfault⟩ : ∃ fault, (recordSignature r).fault? (args.map Prod.fst) = some fault :=
      Option.ne_none_iff_exists'.mp fun h => hfits ((fault?_eq_none_iff_fits hr hnone).1 h)
    refine .inl ⟨.badCall r.name fault, fun k hk => absurd (hnone ▸ hk) List.not_mem_nil, ?_⟩
    rw [run_buildRecord_of_accepted hnone, construct, constructorArguments_entriesOf, hfault]
    rfl
  · obtain ⟨names, -, hshort, hrun⟩ | hlong := run_buildRecord_of_strangers hnone st
    · exact .inl ⟨_, hshort, hrun⟩
    · exact .inr hlong

/-- A plain record is made of the mappings that fit and of nothing else. What is made holds what the
mapping gives and the record's own defaults, and nothing else of the mapping. Of a mapping that does
not fit, nothing is made: it is reported as misuse, unless a key that the record does not take is or
holds a number that is too long to write, which then is all that is said. What is no mapping is
reported as such. -/
theorem record_classified (hr : r.Plain) (data : Slot) (st : Store) :
    ((∃ s st', (build (.record r) data).run.run st = (.ok s, st')) ↔
      ∃ es, st.heap.entries? data = some es ∧ r.Fits es) ∧
    (∀ es, st.heap.entries? data = some es → r.Fits es →
      ∃ addr fields h', (build (.record r) data).run.run st = (.ok (.ref addr), ⟨h', st.log⟩) ∧
        r.MadeAt es st.heap h' addr fields) ∧
    (∀ es, st.heap.entries? data = some es → ¬ r.Fits es →
      (∃ m, (∀ k ∈ strangers r es, ¬ k.HoldsLong) ∧
          (build (.record r) data).run.run st = (.error (.misuse m), st)) ∨
        (∃ k ∈ strangers r es, k.HoldsLong) ∧
          (build (.record r) data).run.run st = (.error (.number .tooLongToWrite), st)) ∧
    (st.heap.entries? data = none → (build (.record r) data).run.run st =
      (.error (.misuse (.notMapping r.name (st.heap.kindName data))), st)) := by
  have hmade : ∀ es, st.heap.entries? data = some es → r.Fits es →
      ∃ addr fields h', (build (.record r) data).run.run st = (.ok (.ref addr), ⟨h', st.log⟩) ∧
        r.MadeAt es st.heap h' addr fields := by
    intro es hes hfits
    rw [run_build_record hes]
    exact run_buildRecord_of_fits hr hfits st
  have hrefused : ∀ es, st.heap.entries? data = some es → ¬ r.Fits es →
      (∃ m, (∀ k ∈ strangers r es, ¬ k.HoldsLong) ∧
          (build (.record r) data).run.run st = (.error (.misuse m), st)) ∨
        (∃ k ∈ strangers r es, k.HoldsLong) ∧
          (build (.record r) data).run.run st = (.error (.number .tooLongToWrite), st) := by
    intro es hes hfits
    rw [run_build_record hes]
    exact run_buildRecord_of_not_fits hr hfits st
  have hnone : st.heap.entries? data = none → (build (.record r) data).run.run st =
      (.error (.misuse (.notMapping r.name (st.heap.kindName data))), st) := by
    intro hes
    rw [build, Act.run_bind, run_look_entries? hes]
    rfl
  -- It ends well exactly for a mapping that fits, since each of the others ends with an error.
  refine ⟨⟨?_, ?_⟩, hmade, hrefused, hnone⟩
  · rintro ⟨s, st', hok⟩
    rcases hes : st.heap.entries? data with _ | es
    · cases congrArg Prod.fst (hok.symm.trans (hnone hes))
    · refine ⟨es, rfl, by_contra fun hfits => ?_⟩
      obtain ⟨m, -, hrun⟩ | ⟨-, hrun⟩ := hrefused es hes hfits
      · cases congrArg Prod.fst (hok.symm.trans hrun)
      · cases congrArg Prod.fst (hok.symm.trans hrun)
  · rintro ⟨es, hes, hfits⟩
    obtain ⟨addr, fields, h', hrun, -⟩ := hmade es hes hfits
    exact ⟨_, _, hrun⟩

end Shape

/-! A record with a field of every kind. -/
namespace ServerRecord

/-- A host that has to be given, a port, tags by keyword only, and a number that cannot be given. -/
def shape : RecordShape :=
  ⟨"Server",
    [⟨"host", none, true, false, false⟩, ⟨"port", some (.atom (.int 80)), true, false, false⟩,
      ⟨"tags", some (.list []), true, true, false⟩,
      ⟨"id", some (.atom (.int 7)), false, false, false⟩],
    none⟩

/-- The record is plain. -/
theorem plain : shape.Plain where
  fields := by decide
  defaults f hf v hv := by
    simp only [shape, List.mem_cons, List.not_mem_nil, or_false] at hf
    rcases hf with rfl | rfl | rfl | rfl <;> cases hv
    · exact .atom _
    · exact .list fun _ h => absurd h List.not_mem_nil
    · exact .atom _
  sound := rfl

/-- A host and some tags. -/
def entries : Entries Slot :=
  Shape.entriesOf [("host", .atom (.text "a")), ("tags", .ref 1)]

/-- They fit. -/
theorem fits : shape.Fits entries := (Shape.fault?_eq_none_iff_fits plain rfl).1 (by decide)

/-- A mapping at hand, with a list. -/
def store (es : Entries Slot) : Store := ⟨⟨#[.map es, .list []]⟩, []⟩

/-- The record is made of a mapping that gives a host and tags. -/
theorem made_of_entries : shape.Fits entries ∧ ∃ addr fields h',
    (Shape.build (.record shape) (.ref 0)).run.run (store entries) = (.ok (.ref addr), ⟨h', []⟩) ∧
      shape.MadeAt entries (store entries).heap h' addr fields :=
  ⟨fits, (Shape.record_classified plain (.ref 0) (store entries)).2.1 entries rfl fits⟩

/-- A number of one digit too many. -/
def long : Atom := .int (Int.ofNat (Nat.pow 10 Numeral.digitLimit))

/-- A host and the number as a key. -/
def longEntries : Entries Slot := [(.text "host", .atom (.text "a")), (long, .atom .null)]

/-- A whole number is long if it has too many digits. -/
theorem holdsLong_of_le {n : Nat} (h : Nat.pow 10 Numeral.digitLimit ≤ n) :
    (Atom.int (Int.ofNat n)).HoldsLong := .int h

/-- The number is a key that the record does not take. -/
theorem long_mem_strangers : long ∈ Shape.strangers shape longEntries :=
  Shape.mem_strangers.2 ⟨List.mem_cons_of_mem _ List.mem_cons_self, rfl⟩

/-- A mapping with so long a number as a key is not reported as misuse. -/
theorem long_key_escapes : ¬ shape.Fits longEntries ∧
    (Shape.build (.record shape) (.ref 0)).run.run (store longEntries) =
      (.error (.number .tooLongToWrite), store longEntries) := by
  refine ⟨fun hfits => ?_, ?_⟩
  · have hnone := (Shape.strangers_eq_nil_iff_named plain).2 hfits.named
    exact absurd (hnone ▸ long_mem_strangers) List.not_mem_nil
  · rw [Shape.run_build_record rfl]
    obtain ⟨-, -, hshort, -⟩ | ⟨-, hrun⟩ :=
      Shape.run_buildRecord_of_strangers (List.ne_nil_of_mem long_mem_strangers) (store longEntries)
    · exact absurd (holdsLong_of_le (Nat.le_refl _)) (hshort long long_mem_strangers)
    · exact hrun

end ServerRecord
end Stratum
