import Mathlib.Data.List.Forall2
import Stratum.Shape

/-!
# Mappings as arguments

When the entries of a mapping are the arguments of a call, and what is said of those that are not.
A key is the name of an argument if it is a text. A call fits its signature if every argument names
a parameter and every parameter without a default is named (`Signature.fault?_eq_none_iff`). Keys
that are no fields of a record are reported by their texts, and only a key that is or holds too long
a number has none (`Shape.unknownNames_cases`).
-/

namespace Stratum

/-! ## Texts of keys -/

/-- Answers one after the other come from each element, or the first failure ends them. -/
theorem mapM_cases {ε α β : Type} (f : α → Except ε β) (xs : List α) :
    (∃ ys, xs.mapM f = .ok ys ∧ List.Forall₂ (fun x y => f x = .ok y) xs ys) ∨
      ∃ x ∈ xs, ∃ e, f x = .error e ∧ xs.mapM f = .error e := by
  induction xs with
  | nil => exact .inl ⟨[], rfl, .nil⟩
  | cons x xs ih =>
    rw [List.mapM_cons]
    rcases hx : f x with e | y
    · exact .inr ⟨x, List.mem_cons_self, e, hx, rfl⟩
    · obtain ⟨ys, hys, hall⟩ | ⟨z, hz, e, hfails, he⟩ := ih
      · rw [hys]
        exact .inl ⟨y :: ys, rfl, .cons hx hall⟩
      · rw [he]
        exact .inr ⟨z, List.mem_cons_of_mem x hz, e, hfails, rfl⟩

namespace Atom

/-- An atom is or holds a whole number with more digits than may be written. -/
inductive HoldsLong : Atom → Prop
  | int {n : Int} (h : Nat.pow 10 Numeral.digitLimit ≤ n.natAbs) : HoldsLong (.int n)
  | row {items : List Atom} {a : Atom} (hmem : a ∈ items) (h : HoldsLong a) : HoldsLong (.row items)

/-- A row holds a long number if one of its atoms does. -/
theorem holdsLong_row_iff {items : List Atom} : HoldsLong (.row items) ↔ ∃ a ∈ items, HoldsLong a :=
  ⟨fun h => by cases h with | row hmem h => exact ⟨_, hmem, h⟩, fun ⟨_, hmem, h⟩ => .row hmem h⟩

/-- A row fails to be quoted as its atoms do. -/
theorem quoted_row_eq_error_iff {items : List Atom} {fault : Numeral.Fault} :
    quoted (.row items) = .error fault ↔ quotedList items = .error fault := by
  match items with
  | [] => simp [quoted, quotedList, Except.map]
  | [a] =>
    rw [quoted, quotedList, quotedList]
    rcases a.quoted with fault' | s <;> simp [Except.map, bind, Except.bind]
  | a :: b :: rest =>
    rw [quoted]
    · rcases quotedList (a :: b :: rest) with fault' | ss <;> simp [Except.map]
    · simp

mutual

/-- Only an atom that is or holds a long number fails to be quoted. -/
theorem quoted_eq_error_iff {fault : Numeral.Fault} :
    (a : Atom) → (quoted a = .error fault ↔ fault = .tooLongToWrite ∧ a.HoldsLong)
  | null | bool _ | real _ | text _ | brokenText _ | bytes _ | date _ | moment _ => by
    refine ⟨fun h => by simp [quoted] at h, fun ⟨_, h⟩ => ?_⟩
    cases h
  | int n => by
    have hlong : HoldsLong (.int n) ↔ Nat.pow 10 Numeral.digitLimit ≤ n.natAbs :=
      ⟨fun h => by cases h with | int h => exact h, .int⟩
    rw [quoted, Numeral.write, hlong]
    by_cases hn : n.natAbs < Nat.pow 10 Numeral.digitLimit
    · rw [if_pos hn]
      exact ⟨fun h => (by cases h), fun ⟨_, h⟩ => absurd hn (Nat.not_lt.mpr h)⟩
    · rw [if_neg hn, Except.error.injEq]
      exact ⟨fun h => ⟨h.symm, Nat.not_lt.mp hn⟩, fun h => h.1.symm⟩
  | row items => by
    rw [quoted_row_eq_error_iff, holdsLong_row_iff]
    exact quotedList_eq_error_iff items

/-- Atoms fail to be quoted if one of them does. -/
theorem quotedList_eq_error_iff {fault : Numeral.Fault} : (items : List Atom) →
    (quotedList items = .error fault ↔ fault = .tooLongToWrite ∧ ∃ a ∈ items, a.HoldsLong)
  | [] => by simp [quotedList]
  | a :: rest => by
    have hfirst : a.quoted = .error fault ↔ _ := quoted_eq_error_iff a
    have hothers : quotedList rest = .error fault ↔ _ := quotedList_eq_error_iff rest
    rw [quotedList]
    rcases hquoted : a.quoted with fault' | s
    · have hlong := ((quoted_eq_error_iff a).1 hquoted).2
      rw [hquoted, Except.error.injEq] at hfirst
      simp only [bind, Except.bind, Except.error.injEq, hfirst, List.mem_cons, exists_eq_or_imp,
        hlong, true_or, and_true]
    · have hshort : ¬ a.HoldsLong := fun h =>
        nomatch hquoted.symm.trans ((quoted_eq_error_iff a).2 ⟨rfl, h⟩)
      simp only [List.mem_cons, exists_eq_or_imp, hshort, false_or, ← hothers]
      rcases quotedList rest with fault' | ss <;> simp [bind, Except.bind]

end

/-- Only an atom that is or holds a long number has no text in a message. -/
theorem display_eq_error_iff {a : Atom} {fault : Numeral.Fault} :
    display a = .error fault ↔ fault = .tooLongToWrite ∧ a.HoldsLong := by
  have hquoted : a.quoted = .error fault ↔ _ := a.quoted_eq_error_iff
  cases a with
  | text s | brokenText b | date d | moment t =>
    refine ⟨fun h => by simp [display] at h, fun ⟨_, h⟩ => ?_⟩
    cases h
  | null | bool b | int n | real x | bytes bs | row items =>
    rw [← hquoted, display]
    · rcases quoted _ with fault' | s <;> simp [Except.map]
    all_goals simp

end Atom

/-! ## Signatures -/

namespace Signature

variable {s : Signature} {names : List String}

/-- No argument is at fault if each of them names a parameter. -/
theorem misnamed?_eq_none_iff :
    s.misnamed? names = none ↔ ∀ name ∈ names, s.accepts name = true := by
  simp [misnamed?]

/-- No parameter of a kind is missing if each of them without a default is named. -/
theorem missing?_eq_none_iff {keywordOnly : Bool} : s.missing? keywordOnly names = none ↔
    ∀ p ∈ s.parameters, p.keywordOnly = keywordOnly → p.optional = false → p.name ∈ names := by
  have hleft : s.missing? keywordOnly names = none ↔ (s.parameters.filter fun p =>
      p.keywordOnly == keywordOnly && !p.optional && !names.contains p.name) = [] := by
    unfold missing?
    dsimp only
    rcases s.parameters.filter _ with _ | ⟨p, ps⟩ <;> simp
  rw [hleft, List.filter_eq_nil_iff]
  refine forall₂_congr fun p _ => ?_
  rcases p with ⟨name, _ | _, kind⟩ <;> simp

/-- A call fits if every argument names a parameter and every parameter without a default is
named. -/
theorem fault?_eq_none_iff : s.fault? names = none ↔
    (∀ name ∈ names, s.accepts name = true) ∧
      ∀ p ∈ s.parameters, p.optional = false → p.name ∈ names := by
  rw [fault?, Option.or_eq_none_iff, Option.or_eq_none_iff, misnamed?_eq_none_iff,
    missing?_eq_none_iff, missing?_eq_none_iff, and_assoc, and_congr_right_iff]
  -- A parameter is of one kind or of the other.
  refine fun _ => ⟨fun ⟨hplace, hkeyword⟩ p hp => ?_, fun h => ⟨fun p hp _ => h p hp,
    fun p hp _ => h p hp⟩⟩
  cases hkind : p.keywordOnly with
  | false => exact hplace p hp hkind
  | true => exact hkeyword p hp hkind

end Signature

/-! ## Arguments -/

namespace Shape

variable {r : RecordShape} {es : Entries Slot} {k : Atom}

/-- The entries of a mapping that are arguments with these names. -/
def entriesOf (args : List (String × Slot)) : Entries Slot :=
  args.map fun (name, s) => (.text name, s)

/-- A mapping whose keys are all texts is one of arguments. -/
theorem exists_entriesOf (h : ∀ k ∈ es.keys, ∃ name, k = .text name) :
    ∃ args, es = entriesOf args := by
  induction es with
  | nil => exact ⟨[], rfl⟩
  | cons e es ih =>
    obtain ⟨hkey, hkeys⟩ := List.forall_mem_cons.mp h
    obtain ⟨name, hname⟩ := hkey
    obtain ⟨args, rfl⟩ := ih hkeys
    exact ⟨(name, e.2) :: args, congrArg (· :: entriesOf args) (Prod.ext hname rfl)⟩

/-- The arguments of such a mapping are those that it was made of. -/
theorem arguments_entriesOf (args : List (String × Slot)) :
    arguments (entriesOf args) = .ok args := by
  unfold arguments entriesOf
  induction args with
  | nil => rfl
  | cons arg args ih =>
    rw [List.map_cons, List.mapM_cons, ih]
    rfl

/-- What stands under a text in such a mapping is the argument of this name. -/
theorem find?_entriesOf (args : List (String × Slot)) (name : String) :
    (entriesOf args).find? (.text name) = args.lookup name := by
  induction args with
  | nil => rfl
  | cons arg args ih =>
    have hsame : (Atom.text arg.1).sameKey (.text name) = (name == arg.1) := Bool.beq_comm
    show (if (Atom.text arg.1).sameKey (.text name) then some arg.2
      else (entriesOf args).find? (.text name)) = _
    rw [hsame, ih, List.lookup_cons]
    rcases name == arg.1 <;> rfl

/-! ## Keys that are no fields -/

/-- A record takes the names of those of its fields that are parameters of its constructor, and no
other key. -/
theorem isAccepted_iff : isAccepted r k = true ↔
    ∃ f ∈ r.fields, f.isParameter = true ∧ f.onlyParameter = false ∧ k = .text f.name := by
  cases k with
  | text name =>
    simp only [isAccepted, acceptedNames, List.contains_iff_mem, List.mem_map, List.mem_filter,
      Bool.and_eq_true, Bool.not_eq_true', and_assoc, Atom.text.injEq, eq_comm (a := name)]
  | _ => simp [isAccepted]

/-- The keys of a mapping that a record does not take. -/
def strangers (r : RecordShape) (es : Entries Slot) : List Atom := es.keys.filter (!isAccepted r ·)

/-- They are those keys. -/
theorem mem_strangers : k ∈ strangers r es ↔ k ∈ es.keys ∧ isAccepted r k = false := by
  simp [strangers]

/-- There are none if the record takes every key. -/
theorem strangers_eq_nil_iff : strangers r es = [] ↔ ∀ k ∈ es.keys, isAccepted r k = true := by
  simp [strangers]

/-- The text of a key in a report, if it has one. -/
def reportText? (k : Atom) : Option String :=
  k.display.toOption.map fun points => String.ofList (Text.CodePoint.written points)

/-- Keys that have texts are reported by them, and none of them is or holds a long number. -/
theorem filterMap_reportText? {keys : List Atom} {points : List (List Text.CodePoint)}
    (h : List.Forall₂ (fun k p => k.display = .ok p) keys points) :
    keys.filterMap reportText? = points.map (fun p => String.ofList (Text.CodePoint.written p)) ∧
      ∀ k ∈ keys, ¬ k.HoldsLong := by
  induction h with
  | nil => exact ⟨rfl, fun _ hk => absurd hk List.not_mem_nil⟩
  | @cons k p keys points hdisplay _ ih =>
    obtain ⟨htexts, hshort⟩ := ih
    have hreport : reportText? k = some (String.ofList (Text.CodePoint.written p)) := by
      rw [reportText?, hdisplay]
      rfl
    refine ⟨by rw [List.filterMap_cons, hreport, htexts, List.map_cons], ?_⟩
    refine List.forall_mem_cons.mpr ⟨fun hlong => ?_, hshort⟩
    cases hdisplay.symm.trans (Atom.display_eq_error_iff.2 ⟨rfl, hlong⟩)

/-- The keys that a record does not take are reported by their texts, unless one of them is or holds
a number that is too long to write. -/
theorem unknownNames_cases (r : RecordShape) (es : Entries Slot) :
    (∃ names, unknownNames r es = .ok names ∧ names.length = (strangers r es).length ∧
        names.Perm ((strangers r es).filterMap reportText?) ∧
          ∀ k ∈ strangers r es, ¬ k.HoldsLong) ∨
      (∃ k ∈ strangers r es, k.HoldsLong) ∧ unknownNames r es = .error .tooLongToWrite := by
  have hunknown : unknownNames r es = (do
      let points ← (strangers r es).mapM Atom.display
      .ok ((Text.sortPoints points).map fun p => String.ofList (Text.CodePoint.written p))) := rfl
  rw [hunknown]
  generalize strangers r es = keys
  obtain ⟨points, hpoints, hall⟩ | ⟨k, hk, fault, hfault, herror⟩ := mapM_cases Atom.display keys
  · have hperm : (Text.sortPoints points).Perm points := Text.sortBy_perm _ points
    obtain ⟨htexts, hshort⟩ := filterMap_reportText? hall
    rw [hpoints, htexts]
    refine .inl ⟨_, rfl, ?_, hperm.map _, hshort⟩
    rw [List.length_map, hperm.length_eq, hall.length_eq]
  · obtain ⟨rfl, hlong⟩ := Atom.display_eq_error_iff.1 hfault
    rw [herror]
    exact .inr ⟨⟨k, hk, hlong⟩, rfl⟩

end Shape
end Stratum
