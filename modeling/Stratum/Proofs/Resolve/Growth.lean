import Stratum.Proofs.Overlay.Merge
import Stratum.Proofs.Resolve.Extensions
import Stratum.Proofs.Resolve.Typed
import Stratum.Proofs.Heap.Building
import Stratum.Proofs.Yaml.Load

/-!
# Resolving makes objects of its own

Parsing makes cells and changes none, and a merge changes the top of what was parsed only. So
resolving a name changes no cell that was there, and what it comes to leads to cells that it made
(`Resolver.makes_resolveMap`, `Resolver.makes_resolveObject`).
-/

namespace Stratum

namespace Heap

variable {h h' : Heap} {R' : Set Addr}

/-- Where no cell was to be changed, all that happens is growth. -/
theorem Changed.grown (hc : Changed h h' ∅ R') : Grown h h' ∅ R' :=
  ⟨hc.size_le, fun addr hlt => hc.get?_eq addr hlt (Set.notMem_empty addr), hc.subset, hc.new,
    hc.domain⟩

end Heap

namespace Act

variable {α β : Type} {given : List Slot} {leads : α → List Slot} {act : Act α}

/-- An act that does nothing but tell lines makes nothing. -/
theorem OnlyTells.grows (h : act.OnlyTells) : Grows given act fun _ => [] := by
  intro st R hR _
  rw [h.tells st]
  exact ⟨R, hR.grown, fun _ _ _ hs => absurd hs List.not_mem_nil⟩

/-- An answer whose slots hold atoms makes nothing. -/
theorem grows_pure_atom {s : Slot} {a : Atom} (h : s = .atom a) :
    Grows given (pure s) fun s => [s] := by
  intro st R hR _
  refine ⟨R, hR.grown, ?_⟩
  rintro b ⟨⟩ t ht
  obtain rfl := List.mem_singleton.mp ht
  rw [h]
  trivial

/-- Failures are handled by acts that make cells and change none. -/
theorem Grows.tryCatch {handle : Failure → Act α} (hact : act.Grows given leads)
    (hhandle : ∀ e, (handle e).Grows given leads) :
    (MonadExcept.tryCatch act handle : Act α).Grows given leads := by
  intro st R hR hgiven
  obtain ⟨R₁, hg, hleads⟩ := hact st R hR hgiven
  rw [run_tryCatch]
  rcases hrun : act.run.run st with ⟨e | a, st₁⟩
  · rw [hrun] at hg
    obtain ⟨R₂, hg', hleads'⟩ :=
      hhandle e st₁ R₁ hg.domain fun s hs => (hgiven s hs).mono hg.subset
    exact ⟨R₂, hg.trans hg', hleads'⟩
  · rw [hrun] at hg hleads
    exact ⟨R₁, hg, hleads⟩

/-- An act changes no cell that was there, and the slots of its answer lead to new cells only. -/
def Makes (act : Act α) (leads : α → List Slot) : Prop :=
  ∀ st, ∃ R', Heap.Grown st.heap (act.run.run st).2.heap ∅ R' ∧
    ∀ a, (act.run.run st).1 = .ok a → ∀ s ∈ leads a, s.In R'

/-- An act that is given no slots makes what it leads to. -/
theorem Grows.makes (h : Grows [] act leads) : Makes act leads := fun st =>
  h st ∅ st.heap.isDomain_empty fun _ hs => absurd hs List.not_mem_nil

/-- What is made of an answer has its slots and atoms. -/
theorem Makes.map {leads' : β → List Slot} (h : Makes act leads) {f : α → β}
    (hleads : ∀ a, ∀ s ∈ leads' (f a), s ∈ leads a ∨ ∃ b, s = .atom b) :
    Makes (do return f (← act)) leads' := by
  intro st
  obtain ⟨R', hg, hin⟩ := h st
  rw [run_bind]
  rcases hrun : act.run.run st with ⟨e | a, st'⟩
  · rw [hrun] at hg
    refine ⟨R', hg, ?_⟩
    rintro b ⟨⟩
  · rw [hrun] at hg hin
    refine ⟨R', hg, ?_⟩
    rintro b ⟨⟩ s hs
    rcases hleads a s hs with hs | ⟨c, rfl⟩
    · exact hin a rfl s hs
    · trivial

end Act

/-! ## Parsing -/

namespace Document

open Act (grows_pure grows_pure_atom grows_throw grows_look grows_make_alloc grows_make_store)

variable {given : List Slot}

/-- A JSON document is made of new cells. -/
theorem grows_ofJson (bytes : List UInt8) (name : String) :
    (ofJson bytes name).Grows given fun s => [s] := by
  unfold ofJson
  split
  · exact grows_throw _
  · split
    · exact grows_pure_atom rfl
    · split
      · exact grows_make_store _
      · exact grows_throw _
      · exact grows_throw _

/-- A YAML document is made of new cells. -/
theorem grows_ofYaml (bytes : List UInt8) (name : String) :
    (ofYaml bytes name).Grows given fun s => [s] := by
  intro st R hR _
  have hload := Yaml.load_behind bytes st.heap .empty
  rw [Heap.behind_empty] at hload
  have hget : (get : Act Store).run.run st = (.ok st, st) := rfl
  unfold ofYaml
  rw [Act.run_bind, hget]
  dsimp only
  rw [hload]
  rcases hfresh : Yaml.load bytes .empty with fault | ⟨s, fresh⟩
  · refine ⟨R, ?_, ?_⟩
    · cases fault <;> exact hR.grown
    · cases fault <;> rintro a ⟨⟩
  · obtain ⟨hplain, hs⟩ := Yaml.isPlain_load Heap.isPlain_empty hfresh
    refine ⟨_, hR.grown_behind hplain.domain, ?_⟩
    rintro a ⟨⟩ t ht
    obtain rfl := List.mem_singleton.mp ht
    exact (Heap.in_further _ hs).mono Set.subset_union_right

/-- A document is made of new cells. -/
theorem grows_parse (bytes : List UInt8) (name : String) :
    (parse bytes name).Grows given fun s => [s] := by
  unfold parse
  split
  · exact grows_ofJson bytes name
  · exact grows_ofYaml bytes name

/-- The mapping of a document is made of new cells. -/
theorem grows_parseMapping (bytes : List UInt8) (name : String) :
    (parseMapping bytes name).Grows given fun s => [s] := by
  unfold parseMapping
  refine (grows_parse bytes name).bind fun s => ?_
  split
  · exact grows_make_alloc fun _ _ _ ht => absurd ht List.not_mem_nil
  · refine (grows_look _).bind fun es => ?_
    split
    · exact grows_pure fun t ht => List.mem_append_right _ (List.mem_append_left _ ht)
    · exact (grows_look _).bind fun kind => grows_throw _

end Document

/-! ## Resolving -/

/-- Laying values over a config changes cells of a domain only that the config leads into, whoever
provides them. -/
theorem Overlay.changed_of_mergeMap (o : Overlay) {st : Store} {R : Set Addr} {config : Slot}
    (hR : st.heap.IsDomain R) (hconfig : config.In R) :
    ∃ R', Heap.Changed st.heap ((o.mergeMap config).run.run st).2.heap R R' := by
  cases o with
  | nothing => exact ⟨R, hR.grown.changed⟩
  | managed values exempt => exact changed_mergeMap values exempt hR hconfig

namespace Resolver

open Act (Makes grows_pure grows_throw onlyTells_pure onlyTells_tell onlyTells_throw)

variable {given : List Slot} (r : Resolver) (t : FileTree) (name hint : String)

/-- The mapping of a stream is made of new cells. -/
theorem grows_mappingOf (s : Stream) (filename : String) (bytes : List UInt8) :
    (mappingOf s filename bytes).Grows given fun s => [s] := by
  unfold mappingOf
  refine (Document.grows_parseMapping bytes filename).tryCatch fun e => ?_
  split
  · exact (onlyTells_tell ..).grows.bind fun _ => grows_throw _
  · exact grows_throw _

/-- The mapping in a file is made of new cells. -/
theorem grows_load (filename : String) :
    (r.load t filename hint).Grows given Option.toList := by
  have hlocate := (r.search.tells_locate t filename hint)
  unfold load
  refine Act.OnlyTells.grows ⟨_, _, hlocate⟩ |>.bind fun found => ?_
  split
  · exact grows_pure fun _ hs => absurd hs List.not_mem_nil
  · split
    · refine (grows_mappingOf _ _ _).bind fun config => grows_pure ?_
      exact List.forall_mem_singleton.mpr (List.mem_append_left _ List.mem_cons_self)
    · exact (onlyTells_tell ..).grows.bind fun _ =>
        grows_pure fun _ hs => absurd hs List.not_mem_nil

/-- The mapping in the first file of a name is made of new cells. -/
theorem grows_loadFirst (extensions : List String) :
    (r.loadFirst t name hint extensions).Grows given Option.toList := by
  induction extensions generalizing given with
  | nil => exact grows_pure fun _ hs => absurd hs List.not_mem_nil
  | cons e rest ih =>
    unfold loadFirst
    refine (r.grows_load t hint (name ++ e)).bind fun found => ?_
    split
    · exact grows_pure fun _ hs => List.mem_append_left _ hs
    · exact ih

/-- A name is resolved to a mapping of new cells, and no cell is changed that was there. -/
theorem makes_resolveMap (s : Search) (o : Overlay) :
    Makes ((Resolver.mk s o).resolveMap t name hint) Option.toList := by
  intro st
  obtain ⟨R₁, hg, hin⟩ :=
    ((Resolver.mk s o).grows_loadFirst t name hint Document.extensions).makes st
  unfold resolveMap
  rw [Act.run_bind]
  rcases hload : ((Resolver.mk s o).loadFirst t name hint Document.extensions).run.run st with
    ⟨e | _ | config, st₁⟩
  -- There was an error, or no config, or the one that was parsed, which is exempt or laid over.
  all_goals rw [hload] at hg hin
  · refine ⟨R₁, hg, ?_⟩
    rintro a ⟨⟩
  · refine ⟨R₁, hg, ?_⟩
    rintro a ⟨⟩ s hs
    exact absurd hs List.not_mem_nil
  · have hconfig : config.In R₁ := hin _ rfl config List.mem_cons_self
    dsimp only [Overlay.provider]
    rw [pure_bind]
    split
    · refine ⟨R₁, hg, ?_⟩
      rintro a ⟨⟩ s hs
      obtain rfl := List.mem_singleton.mp hs
      exact hconfig
    · -- What was parsed is new, so that a change of its top changes no cell that was there.
      obtain ⟨R₂, hc⟩ := o.changed_of_mergeMap hg.domain hconfig
      have hgrown := (hg.changed.trans hc).grown
      rw [Act.run_bind]
      rcases hrun : (o.mergeMap config).run.run st₁ with ⟨e | _, st₂⟩
      all_goals rw [hrun] at hc hgrown
      · refine ⟨R₂, hgrown, ?_⟩
        rintro a ⟨⟩
      · refine ⟨R₂, hgrown, ?_⟩
        rintro a ⟨⟩ s hs
        obtain rfl := List.mem_singleton.mp hs
        exact hconfig.mono hc.subset

/-- A name is resolved to an object of new cells, and no cell is changed that was there. -/
theorem makes_resolveObject (s : Search) (o : Overlay) (shape : Shape) :
    Makes ((Resolver.mk s o).resolveObject t name shape hint) Option.toList := by
  intro st
  obtain ⟨R₁, hg, hin⟩ := makes_resolveMap t name hint s o st
  rw [resolveObject_eq, Act.run_bind]
  rcases hrun : ((Resolver.mk s o).resolveMap t name hint).run.run st with ⟨e | _ | config, st₁⟩
  all_goals rw [hrun] at hg hin
  · refine ⟨R₁, hg, ?_⟩
    rintro a ⟨⟩
  · refine ⟨R₁, hg, ?_⟩
    rintro a ⟨⟩ s hs
    exact absurd hs List.not_mem_nil
  · have hbuild : (do return some (← shape.build config) : Act (Option Slot)).Grows [config]
        Option.toList := by
      refine (shape.grows_build config).bind fun s => grows_pure ?_
      exact List.forall_mem_singleton.mpr (List.mem_append_left _ List.mem_cons_self)
    obtain ⟨R₂, hg', hin'⟩ := hbuild st₁ R₁ hg.domain
      (List.forall_mem_singleton.mpr (hin _ rfl config List.mem_cons_self))
    exact ⟨R₂, hg.trans hg', hin'⟩

/-- The content of a file as a text is found without making anything. -/
theorem onlyTells_resolveString (filename : String) :
    (r.resolveString t filename hint).OnlyTells := by
  have hlocate := (r.search.tells_locate t filename hint)
  unfold resolveString
  refine Act.OnlyTells.bind ⟨_, _, hlocate⟩ fun found => ?_
  split
  · exact onlyTells_pure _
  · split
    · exact (onlyTells_tell ..).bind fun _ => onlyTells_pure _
    · split
      · exact onlyTells_pure _
      · exact (onlyTells_tell ..).bind fun _ => onlyTells_throw _

end Resolver
end Stratum
