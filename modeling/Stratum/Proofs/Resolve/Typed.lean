import Stratum.Proofs.Shape
import Stratum.Resolve

/-!
# Objects are built from maps

Under an overlay, asking for an object resolves the name as asking for its mapping does, and then
makes the mapping into the shape, which tells the logger nothing (`Resolver.resolveObject_by_map`).
-/

namespace Stratum

namespace Resolver

variable (s : Search) (o : Overlay) (t : FileTree) (name : String) (shape : Shape) (hint : String)

/-- An object is built from what the name is resolved to as a mapping. -/
theorem resolveObject_eq :
    (Resolver.mk s o).resolveObject t name shape hint = (do
      match ← (Resolver.mk s o).resolveMap t name hint with
      | none => return none
      | some config => return some (← shape.build config)) := by
  unfold resolveObject resolveMap
  rw [bind_assoc]
  refine bind_congr fun found => ?_
  rcases found with _ | config
  · simp
  · dsimp only [Overlay.provider]
    rw [pure_bind, pure_bind]
    split
    · simp
    · simp [Overlay.mergeObject]

/-- Asking for an object comes to what asking for the mapping of the name and building the shape
from it comes to: to nothing exactly if there is no mapping, to the same failure if there is one on
the way to the mapping, and else to the object or the failure of the build. The lines told are those
that asking for the mapping tells. -/
theorem resolveObject_by_map (st : Store) :
    ((Resolver.mk s o).resolveObject t name shape hint).run.run st =
      (match ((Resolver.mk s o).resolveMap t name hint).run.run st with
      | (.error e, st) => (.error e, st)
      | (.ok none, st) => (.ok none, st)
      | (.ok (some config), st) =>
        (((shape.build config).run.run st).1.map some, ((shape.build config).run.run st).2)) ∧
    ((((Resolver.mk s o).resolveObject t name shape hint).run.run st).1 = .ok none ↔
      (((Resolver.mk s o).resolveMap t name hint).run.run st).1 = .ok none) ∧
    (((Resolver.mk s o).resolveObject t name shape hint).run.run st).2.log =
      (((Resolver.mk s o).resolveMap t name hint).run.run st).2.log := by
  rw [resolveObject_eq, Act.run_bind]
  rcases ((Resolver.mk s o).resolveMap t name hint).run.run st with ⟨e | _ | config, st₁⟩
  · exact ⟨rfl, by simp, rfl⟩
  · exact ⟨rfl, Iff.rfl, rfl⟩
  · have hlog := (shape.silent_build config).log st₁
    dsimp only
    rw [Act.run_bind]
    rcases hbuild : (shape.build config).run.run st₁ with ⟨e | s, st₂⟩
    · rw [hbuild] at hlog
      exact ⟨rfl, by simp, hlog⟩
    · rw [hbuild] at hlog
      refine ⟨rfl, ⟨?_, ?_⟩, hlog⟩
      · rintro ⟨⟩
      · rintro ⟨⟩

end Resolver
end Stratum
