import Stratum.Document
import Stratum.Proofs.Act

/-!
# What parsing does

Parsing makes objects and tells the logger nothing, and what it comes to depends on the objects made
before but not on the lines told. The extension of a file's name tells its format.
-/

namespace Stratum

namespace Document

open Act (Silent silent_pure silent_throw silent_look silent_make)

/-- A JSON document is read without telling anything. -/
theorem silent_ofJson (bytes : List UInt8) (name : String) : (ofJson bytes name).Silent := by
  unfold ofJson
  split
  · exact silent_throw _
  · split
    · exact silent_pure _
    · split
      · exact silent_make _
      · exact silent_throw _
      · exact silent_throw _

/-- The failure of a YAML document that cannot be loaded. -/
def yamlFailure (name : String) : Yaml.Fault → Failure
  | .scalar fault => .scalar fault
  | fault => .malformed ⟨.yaml fault, Text.escape name, Text.escape name⟩

/-- A YAML document is read without telling anything. -/
theorem silent_ofYaml (bytes : List UInt8) (name : String) : (ofYaml bytes name).Silent := by
  intro heap
  have hget : ∀ log, (get : Act Store).run.run ⟨heap, log⟩ = (.ok ⟨heap, log⟩, ⟨heap, log⟩) :=
    fun _ => rfl
  rcases hload : Yaml.load bytes heap with fault | ⟨s, heap'⟩
  · refine ⟨.error (yamlFailure name fault), heap, fun log => ?_⟩
    unfold ofYaml
    rw [Act.run_bind, hget]
    dsimp only
    rw [hload]
    cases fault <;> rfl
  · refine ⟨.ok s, heap', fun log => ?_⟩
    unfold ofYaml
    rw [Act.run_bind, hget]
    dsimp only
    rw [hload]
    rfl

/-- A mapping is read without telling anything. -/
theorem silent_parseMapping (bytes : List UInt8) (name : String) :
    (parseMapping bytes name).Silent := by
  unfold parseMapping parse
  refine Silent.bind ?_ fun s => ?_
  · split
    · exact silent_ofJson bytes name
    · exact silent_ofYaml bytes name
  · split
    · exact silent_make _
    · refine (silent_look _).bind fun entries => ?_
      split
      · exact silent_pure _
      · exact (silent_look _).bind fun kind => silent_throw _

/-- What is read as a mapping is one. -/
theorem isSome_entries?_of_parseMapping {bytes : List UInt8} {name : String} {st st' : Store}
    {config : Slot} (h : (parseMapping bytes name).run.run st = (.ok config, st')) :
    (st'.heap.entries? config).isSome = true := by
  unfold parseMapping at h
  rw [Act.run_bind] at h
  rcases hparse : (parse bytes name).run.run st with ⟨e | s, st₁⟩
  · rw [hparse] at h
    cases h
  · rw [hparse] at h
    dsimp only at h
    split at h
    · -- An empty document is a new empty mapping.
      injection h with hconfig hst
      injection hconfig with hconfig
      subst hconfig hst
      simp [Heap.entries?, Heap.get?_alloc]
    · rw [Act.run_bind] at h
      have hlook : (Act.look (·.entries? s)).run.run st₁ = (.ok (st₁.heap.entries? s), st₁) := rfl
      rw [hlook] at h
      dsimp only at h
      split at h
      · rename_i hsome
        injection h with hconfig hst
        injection hconfig with hconfig
        subst hconfig hst
        exact hsome
      · rw [Act.run_bind] at h
        cases h

/-- A name with an extension is that of a JSON file if the extension is JSON's. -/
theorem endsIn_json {e : String} (he : e ∈ extensions) (name : String) :
    endsIn ".json" (name ++ e) = decide (e = ".json") := by
  simp only [extensions, List.mem_cons, List.not_mem_nil, or_false] at he
  unfold endsIn List.isSuffixOf
  rw [String.toList_append, List.reverse_append]
  rcases he with rfl | rfl | rfl
  · rfl
  · rfl
  · rfl

/-- A file is JSON if its extension says so, and else YAML. -/
theorem parse_of_mem {e : String} (he : e ∈ extensions) (bytes : List UInt8) (name : String) :
    parse bytes (name ++ e) =
      if e = ".json" then ofJson bytes (name ++ e) else ofYaml bytes (name ++ e) := by
  unfold parse
  rw [endsIn_json he]
  by_cases h : e = ".json" <;> simp [h]

end Document

end Stratum
