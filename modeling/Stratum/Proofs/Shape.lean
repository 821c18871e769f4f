import Stratum.Proofs.Act
import Stratum.Shape

/-!
# What building a shape does

A mapping is made into a shape without telling the logger anything (`Shape.silent_build`). It fails
by a misuse, by a number that is too long to write, or as the shape's own code does
(`Shape.failsAs_build`).
-/

namespace Stratum

namespace Shape

open Act (Silent silent_pure silent_throw silent_look silent_make silent_ofExcept)

/-- The arguments for a shape are found without telling anything. -/
theorem silent_argumentsFor (shape : Shape) (es : Entries Slot) :
    (argumentsFor shape es).Silent := by
  unfold argumentsFor
  split
  · exact silent_pure _
  · exact silent_throw _

/-- The arguments of a call are found without telling anything. -/
theorem silent_callWith (shape : Shape) (signature : Signature) (es : Entries Slot) :
    (callWith shape signature es).Silent := by
  unfold callWith
  refine (silent_argumentsFor shape es).bind fun args => ?_
  split
  · exact silent_throw _
  · exact silent_pure _

/-- A function answers without telling anything. -/
theorem silent_answerOf (f : FunctionShape) (args : List (String × Slot)) :
    (answerOf f args).Silent := by
  unfold answerOf
  split
  · exact silent_throw _
  · exact silent_make _

/-- The fields of a record are found without telling anything. -/
theorem silent_fieldSlots (args : List (String × Slot)) (fields : List Field) :
    (fieldSlots args fields).Silent := by
  induction fields with
  | nil => exact silent_pure _
  | cons f rest ih =>
    unfold fieldSlots
    dsimp only
    split
    · exact ih.bind fun fs => silent_pure _
    · exact (silent_make _).bind fun s => ih.bind fun fs => silent_pure _
    · exact ih

/-- A record is built without telling anything. -/
theorem silent_buildRecord (r : RecordShape) (es : Entries Slot) : (buildRecord r es).Silent := by
  unfold buildRecord
  refine (silent_ofExcept _).bind fun unknown => ?_
  dsimp only
  split
  · exact silent_throw (.misuse (.unknownFields r.name unknown))
  · refine (silent_callWith _ _ _).bind fun args => (silent_fieldSlots _ _).bind fun fields => ?_
    split
    · exact silent_throw _
    · exact silent_make _

/-- A mapping is made into a shape without telling anything. -/
theorem silent_build (shape : Shape) (data : Slot) : (shape.build data).Silent := by
  unfold build
  refine (silent_look _).bind fun es => ?_
  split
  · exact (silent_look _).bind fun kind => silent_throw _
  · split
    · exact (silent_argumentsFor _ _).bind fun args => silent_make _
    · exact (silent_argumentsFor _ _).bind fun args => silent_make _
    · exact (silent_callWith _ _ _).bind fun args => silent_answerOf _ args
    · exact silent_buildRecord _ _

end Shape

/-! ## Failures -/

/-- The error that the code of a shape ends with, if it does. -/
def Shape.rejection? : Shape → Option HostError
  | function f =>
    match f.body with
    | .error e => some e
    | .ok _ => none
  | record r => r.rejection
  | mapping | openObject => none

/-- The failures that building a shape may end with. -/
inductive Failure.OfShape (shape : Shape) : Failure → Prop
  | misuse (m : Misuse) : OfShape shape (.misuse m)
  | number (fault : Numeral.Fault) : OfShape shape (.number fault)
  | host {e : HostError} (h : shape.rejection? = some e) : OfShape shape (.host e)

/-- An error of the code of a shape is a failure of the shape. -/
theorem Failure.ofShape_rejected {shape : Shape} {e : HostError} (h : shape.rejection? = some e)
    (name : String) : OfShape shape (Shape.rejected name e) := by
  unfold Shape.rejected
  split
  · exact .misuse _
  · exact .host h

namespace Shape

open Act (FailsAs failsAs_pure failsAs_throw failsAs_look failsAs_make failsAs_ofExcept)

/-- How making the arguments for a shape fails. -/
theorem failsAs_argumentsFor (shape : Shape) (es : Entries Slot) :
    (argumentsFor shape es).FailsAs (Failure.OfShape shape) := by
  unfold argumentsFor
  split
  · exact failsAs_pure _
  · exact failsAs_throw (.misuse _)

/-- How a call that does not fit fails. -/
theorem failsAs_callWith (shape : Shape) (signature : Signature) (es : Entries Slot) :
    (callWith shape signature es).FailsAs (Failure.OfShape shape) := by
  refine (failsAs_argumentsFor shape es).bind fun args => ?_
  split
  · exact failsAs_throw (.misuse _)
  · exact failsAs_pure _

/-- How a function fails. -/
theorem failsAs_answerOf (f : FunctionShape) (args : List (String × Slot)) :
    (answerOf f args).FailsAs (Failure.OfShape (.function f)) := by
  unfold answerOf
  split
  · rename_i e hbody
    have hrejection : Shape.rejection? (.function f) = some e := by
      rw [rejection?, hbody]
    exact failsAs_throw (Failure.ofShape_rejected hrejection _)
  · exact failsAs_make _

/-- Making the fields of a record does not fail. -/
theorem failsAs_fieldSlots {P : Failure → Prop} (args : List (String × Slot))
    (fields : List Field) : (fieldSlots args fields).FailsAs P := by
  induction fields with
  | nil => exact failsAs_pure _
  | cons f rest ih =>
    unfold fieldSlots
    dsimp only
    split
    · exact ih.bind fun _ => failsAs_pure _
    · exact (failsAs_make _).bind fun _ => ih.bind fun _ => failsAs_pure _
    · exact ih

/-- How making a record fails. -/
theorem failsAs_buildRecord (r : RecordShape) (es : Entries Slot) :
    (buildRecord r es).FailsAs (Failure.OfShape (.record r)) := by
  have hnames : (Act.ofExcept ((unknownNames r es).mapError .number)).FailsAs
      (Failure.OfShape (.record r)) := by
    refine failsAs_ofExcept fun e he => ?_
    rcases hunknown : unknownNames r es with fault | names
    · rw [hunknown] at he
      obtain rfl := Except.error.inj he
      exact .number fault
    · rw [hunknown] at he
      cases he
  unfold buildRecord
  refine hnames.bind fun unknown => ?_
  dsimp only
  split
  · exact failsAs_throw (.misuse (.unknownFields r.name unknown))
  · refine (failsAs_callWith _ _ es).bind fun args => ?_
    refine (failsAs_fieldSlots args _).bind fun fields => ?_
    split
    · rename_i e hrejection
      have hrejects : (Shape.record r).rejection? = some e := hrejection
      exact failsAs_throw (Failure.ofShape_rejected hrejects _)
    · exact failsAs_make _

/-- How making a mapping into a shape fails. -/
theorem failsAs_build (shape : Shape) (data : Slot) :
    (build shape data).FailsAs (Failure.OfShape shape) := by
  refine (failsAs_look _).bind fun es => ?_
  split
  · exact (failsAs_look _).bind fun kind => failsAs_throw (.misuse _)
  · split
    · exact (failsAs_argumentsFor _ _).bind fun _ => failsAs_make _
    · exact (failsAs_argumentsFor _ _).bind fun _ => failsAs_make _
    · exact (failsAs_callWith _ _ _).bind (failsAs_answerOf _)
    · exact failsAs_buildRecord _ _

end Shape
end Stratum
