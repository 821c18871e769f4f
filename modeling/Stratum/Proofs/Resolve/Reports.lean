import Stratum.Proofs.Heap.Store
import Stratum.Proofs.Resolve.Parsing
import Stratum.Proofs.Shape
import Stratum.Proofs.Text.Printable
import Stratum.Proofs.Yaml.Load

/-!
# Reports that can be printed

Content that cannot be used is reported in printable words with a printable source, whatever the
file is called and whatever it holds (`Document.prints_parseMapping`). An act prints if all that it
tells the logger and all its reports are so (`Act.Prints`).
-/

namespace Stratum

open Text (Printable printable_append printable_escape printable_of_all printable_toString)

/-! ## Names of kinds -/

/-- The name of an atom's kind is printable. -/
theorem Atom.printable_kindName (a : Atom) : Printable a.kindName := by
  cases a <;> exact printable_of_all (by decide)

namespace Heap

/-- Where no cell is an object of a host, the name of a kind is printable. -/
theorem IsPlain.printable_kindName {h : Heap} (hplain : h.IsPlain) (s : Slot) :
    Printable (h.kindName s) := by
  cases s with
  | atom a => exact a.printable_kindName
  | ref addr =>
    rw [kindName]
    rcases hcell : h.get? addr with _ | c
    · exact printable_of_all (by decide)
    · cases c with
      | object kind fields => exact (hplain.plain addr _ hcell).elim
      | _ => exact printable_of_all (by decide)

/-- The kind of a mapping that is made. -/
theorem kindName_store_map (h : Heap) (es : List (Atom × Value)) :
    (h.store (.map es)).2.kindName (h.store (.map es)).1 = "dict" := by
  have hsize := size_le_storeEntries [h.cells.size] (h.alloc (.map [])).2 es
  rw [size_alloc] at hsize
  have hcell : (h.store (.map es)).2.get? h.cells.size = _ := get?_write _ _ hsize
  show (h.store (.map es)).2.kindName (.ref h.cells.size) = "dict"
  rw [kindName, hcell]

/-- The kind of a list that is made. -/
theorem kindName_store_list (h : Heap) (items : List Value) :
    (h.store (.list items)).2.kindName (h.store (.list items)).1 = "list" := by
  have hsize := size_le_storeList [h.cells.size] (h.alloc (.list [])).2 items
  rw [size_alloc] at hsize
  have hcell : (h.store (.list items)).2.get? h.cells.size = _ := get?_write _ _ hsize
  show (h.store (.list items)).2.kindName (.ref h.cells.size) = "list"
  rw [kindName, hcell]

end Heap

namespace Json

/-- The value at a cursor is a scalar, a mapping or a list. -/
theorem readValue_cases {fuel : Nat} {c c' : Cursor} {v : Value}
    (h : readValue fuel c = .ok (v, c')) :
    (∃ a, v = .atom a) ∨ (∃ es, v = .map es) ∨ ∃ items, v = .list items := by
  cases fuel with
  | zero => cases h
  | succ fuel =>
    rw [readValue] at h
    -- One case for each way in which a value starts: a quote, either bracket, or a word or number.
    split at h
    · obtain ⟨⟨ps, c⟩, -, h⟩ := bind_eq_ok h
      obtain ⟨rfl, -⟩ := Prod.mk.inj (Except.ok.inj h)
      exact .inl ⟨_, rfl⟩
    · dsimp only at h
      split at h
      · obtain ⟨rfl, -⟩ := Prod.mk.inj (Except.ok.inj h)
        exact .inr (.inl ⟨_, rfl⟩)
      · obtain ⟨⟨members, c⟩, -, h⟩ := bind_eq_ok h
        obtain ⟨rfl, -⟩ := Prod.mk.inj (Except.ok.inj h)
        exact .inr (.inl ⟨_, rfl⟩)
    · dsimp only at h
      split at h
      · obtain ⟨rfl, -⟩ := Prod.mk.inj (Except.ok.inj h)
        exact .inr (.inr ⟨_, rfl⟩)
      · obtain ⟨⟨items, c⟩, -, h⟩ := bind_eq_ok h
        obtain ⟨rfl, -⟩ := Prod.mk.inj (Except.ok.inj h)
        exact .inr (.inr ⟨_, rfl⟩)
    · split at h
      · obtain ⟨rfl, -⟩ := Prod.mk.inj (Except.ok.inj h)
        exact .inl ⟨_, rfl⟩
      · rcases hnumber : readNumber c with fault | ⟨a, c⟩
        · rw [hnumber] at h
          cases h
        · rw [hnumber] at h
          obtain ⟨rfl, -⟩ := Prod.mk.inj (Except.ok.inj h)
          exact .inl ⟨_, rfl⟩

/-- The kind of what a text holds has a printable name. -/
theorem printable_kindName {text : List Char} {v : Value} (h : read text = .ok v) (heap : Heap) :
    Printable ((heap.store v).2.kindName (heap.store v).1) := by
  unfold read at h
  dsimp only at h
  split at h
  · cases h
  · obtain ⟨⟨w, c⟩, hvalue, h⟩ := bind_eq_ok h
    split at h
    · obtain rfl := Except.ok.inj h
      obtain ⟨a, rfl⟩ | ⟨es, rfl⟩ | ⟨items, rfl⟩ := readValue_cases hvalue
      · exact a.printable_kindName
      · rw [heap.kindName_store_map]
        exact printable_of_all (by decide)
      · rw [heap.kindName_store_list]
        exact printable_of_all (by decide)
    · cases h

/-- The words for a problem are printable. -/
theorem Problem.printable_message (problem : Problem) : Printable problem.message := by
  cases problem <;> exact printable_of_all (by decide)

end Json

/-! ## Failures -/

/-- The words for a content fault are printable if the name of the file is, and that of the kind
that stands in place of a mapping. -/
theorem ContentFault.printable_message {fault : ContentFault} {name : String}
    (hname : Printable name) (hkind : ∀ kind, fault = .notMapping kind → Printable kind) :
    Printable (fault.message name) := by
  unfold message
  cases fault with
  | yaml fault =>
    dsimp only
    rcases fault.mark? with _ | m
    · simp only [printable_append, hname, and_true]
      exact ⟨printable_of_all (by decide), printable_of_all (by decide)⟩
    · simp only [printable_append, hname, printable_toString, and_true]
      exact ⟨printable_of_all (by decide), printable_of_all (by decide),
        printable_of_all (by decide)⟩
  | json problem line column =>
    simp only [printable_append, hname, printable_toString, problem.printable_message, and_true]
    exact ⟨⟨⟨printable_of_all (by decide), printable_of_all (by decide)⟩,
      printable_of_all (by decide)⟩, printable_of_all (by decide)⟩
  | jsonNotText fault => exact printable_append.mpr ⟨printable_of_all (by decide), hname⟩
  | notText fault => exact printable_append.mpr ⟨printable_of_all (by decide), hname⟩
  | notMapping kind =>
    simp only [printable_append, hname, hkind kind rfl, and_true]
    exact ⟨printable_of_all (by decide), printable_of_all (by decide)⟩

/-- A failure is reported in printable words with a printable source if it is about the content of
a file; an error of the host is one that its code may raise. -/
def Failure.Printable (host : HostError → Prop) : Failure → Prop
  | .malformed m => Text.Printable m.message ∧ Text.Printable m.source
  | .host e => host e
  | _ => True

/-- What building a shape fails with is reported so. -/
theorem Failure.OfShape.printable {shape : Shape} {e : Failure} (h : e.OfShape shape) :
    e.Printable (· ∈ shape.rejection?) := by
  cases h with
  | misuse m => trivial
  | number fault => trivial
  | host h => exact h

/-! ## Acts that print -/

/-- Between two logs printable lines were told. -/
def Printed (log log' : List Line) : Prop :=
  ∃ told, log' = log ++ told ∧ ∀ l ∈ told, Printable l.message

namespace Printed

variable {log log' log'' : List Line}

/-- Nothing was told. -/
theorem refl (log : List Line) : Printed log log :=
  ⟨[], (List.append_nil log).symm, fun _ hl => absurd hl List.not_mem_nil⟩

/-- One line was told. -/
theorem line (log : List Line) {l : Line} (h : Printable l.message) : Printed log (log ++ [l]) :=
  ⟨[l], rfl, List.forall_mem_singleton.mpr h⟩

/-- Lines were told one after the other. -/
theorem trans (h : Printed log log') (h' : Printed log' log'') : Printed log log'' := by
  obtain ⟨told, rfl, htold⟩ := h
  obtain ⟨told', rfl, htold'⟩ := h'
  exact ⟨told ++ told', List.append_assoc .., List.forall_mem_append.mpr ⟨htold, htold'⟩⟩

end Printed

namespace Act

variable {α β : Type} {host : HostError → Prop} {x : Act α} {f : α → Act β}

/-- An act tells printable lines only, and ends with failures that are reported so. -/
def Prints (host : HostError → Prop) (act : Act α) : Prop :=
  ∀ st, Printed st.log (act.run.run st).2.log ∧
    ∀ e, (act.run.run st).1 = .error e → e.Printable host

/-- An act that tells nothing prints if its failures are reported so. -/
theorem Silent.prints (hx : x.Silent) (hf : x.FailsAs (Failure.Printable host)) :
    x.Prints host := fun st =>
  ⟨hx.log st ▸ .refl st.log, fun e he => hf st e _ (Prod.ext he rfl)⟩

/-- An answer prints nothing. -/
theorem prints_pure (a : α) : Prints host (pure a) := (silent_pure a).prints (failsAs_pure a)

/-- A failure is reported. -/
theorem prints_throw {e : Failure} (h : e.Printable host) : Prints host (throw e : Act α) :=
  (silent_throw e).prints (failsAs_throw h)

/-- Making objects prints nothing. -/
theorem prints_make (g : Heap → α × Heap) : Prints host (make g) :=
  (silent_make g).prints (failsAs_make g)

/-- Telling the logger prints the line. -/
theorem prints_tell (level : Level) (topic : String) {message : String} (h : Printable message) :
    Prints host (tell level topic message) := fun st => ⟨.line st.log h, fun _ he => by cases he⟩

/-- Acts one after the other print what each of them does. -/
theorem Prints.bind (hx : x.Prints host) (hf : ∀ a, (f a).Prints host) :
    (x >>= f).Prints host := by
  intro st
  obtain ⟨hlog, hfails⟩ := hx st
  rw [run_bind]
  rcases hrun : x.run.run st with ⟨e | a, st₁⟩
  all_goals
    rw [hrun] at hlog hfails
    dsimp only at hlog hfails ⊢
  · exact ⟨hlog, fun e' he' => hfails e' (by rw [← Except.error.inj he'])⟩
  · obtain ⟨hlog', hfails'⟩ := hf a st₁
    exact ⟨hlog.trans hlog', hfails'⟩

/-- Failures that are handled are reported by what handles them. -/
theorem Prints.tryCatch (hx : x.Prints host) {handle : Failure → Act α}
    (hhandle : ∀ e : Failure, e.Printable host → (handle e).Prints host) :
    (MonadExcept.tryCatch x handle : Act α).Prints host := by
  intro st
  obtain ⟨hlog, hfails⟩ := hx st
  rw [run_tryCatch]
  rcases hrun : x.run.run st with ⟨e | a, st₁⟩
  all_goals
    rw [hrun] at hlog hfails
    dsimp only at hlog hfails ⊢
  · obtain ⟨hlog', hfails'⟩ := hhandle e (hfails e rfl) st₁
    exact ⟨hlog.trans hlog', hfails'⟩
  · exact ⟨hlog, fun e he => by cases he⟩

end Act

/-! ## Documents -/

namespace Document

open Act (Answers FailsAs answers_pure answers_throw failsAs_pure failsAs_throw failsAs_make
  failsAs_look)

variable {host : HostError → Prop}

/-- Content that cannot be used is reported in printable words, whatever the file's name is. -/
theorem failsAs_malformed {α : Type} (name : String) {fault : ContentFault}
    (h : ∀ kind, fault = .notMapping kind → Printable kind) :
    (malformed name fault : Act α).FailsAs (Failure.Printable host) :=
  failsAs_throw ⟨ContentFault.printable_message (printable_escape name) h, printable_escape name⟩

/-- A JSON document that cannot be used is reported so. -/
theorem failsAs_ofJson (bytes : List UInt8) (name : String) :
    (ofJson bytes name).FailsAs (Failure.Printable host) := by
  unfold ofJson
  split
  · exact failsAs_malformed name fun kind hkind => by cases hkind
  · split
    · exact failsAs_pure _
    · split
      · exact failsAs_make _
      · exact failsAs_throw trivial
      · exact failsAs_malformed name fun kind hkind => by cases hkind

/-- So is a YAML document. -/
theorem failsAs_ofYaml (bytes : List UInt8) (name : String) :
    (ofYaml bytes name).FailsAs (Failure.Printable host) := by
  unfold ofYaml
  refine FailsAs.bind (fun st e st' hrun => by cases congrArg Prod.fst hrun) fun st => ?_
  split
  · exact FailsAs.bind (fun st e st' hrun => by cases congrArg Prod.fst hrun) fun _ =>
      failsAs_pure _
  · exact failsAs_throw trivial
  · exact failsAs_malformed name fun kind hkind => by cases hkind

/-- What a JSON document holds is of a kind with a printable name. -/
theorem answers_ofJson (bytes : List UInt8) (name : String) :
    (ofJson bytes name).Answers fun s st => Printable (st.heap.kindName s) := by
  unfold ofJson
  split
  · exact answers_throw _
  · split
    · exact answers_pure fun st => Atom.null.printable_kindName
    · split
      · rename_i v hread
        intro st s st' hrun
        obtain ⟨hok, rfl⟩ := Prod.mk.inj hrun
        obtain rfl := Except.ok.inj hok
        exact Json.printable_kindName hread st.heap
      · exact answers_throw _
      · exact answers_throw _

/-- So is what a YAML document holds. -/
theorem answers_ofYaml (bytes : List UInt8) (name : String) :
    (ofYaml bytes name).Answers fun s st => Printable (st.heap.kindName s) := by
  intro st s st' hrun
  have hget : (get : Act Store).run.run st = (.ok st, st) := rfl
  unfold ofYaml at hrun
  rw [Act.run_bind, hget] at hrun
  dsimp only at hrun
  -- What is loaded stands behind the cells that are there, and none of it is an object of a host.
  have hload := Yaml.load_behind bytes st.heap .empty
  rw [Heap.behind_empty] at hload
  rcases hfresh : Yaml.load bytes .empty with fault | ⟨fresh, heap⟩
  · rw [hfresh] at hload
    rw [hload] at hrun
    cases fault <;> cases congrArg Prod.fst hrun
  · rw [hfresh] at hload
    rw [hload] at hrun
    obtain ⟨hplain, -⟩ := Yaml.isPlain_load Heap.isPlain_empty hfresh
    obtain ⟨hok, rfl⟩ := Prod.mk.inj hrun
    obtain rfl := Except.ok.inj hok
    show Printable ((st.heap.behind heap).kindName (fresh.shift st.heap.cells.size))
    rw [Heap.kindName_behind]
    exact hplain.printable_kindName fresh

/-- A document that cannot be used is reported so. -/
theorem failsAs_parse (bytes : List UInt8) (name : String) :
    (parse bytes name).FailsAs (Failure.Printable host) := by
  unfold parse
  split
  · exact failsAs_ofJson bytes name
  · exact failsAs_ofYaml bytes name

/-- What a document holds is of a kind with a printable name. -/
theorem answers_parse (bytes : List UInt8) (name : String) :
    (parse bytes name).Answers fun s st => Printable (st.heap.kindName s) := by
  unfold parse
  split
  · exact answers_ofJson bytes name
  · exact answers_ofYaml bytes name

/-- Parsing a mapping fails with what is reported in printable words. -/
theorem failsAs_parseMapping (bytes : List UInt8) (name : String) :
    (parseMapping bytes name).FailsAs (Failure.Printable host) := by
  refine (failsAs_parse bytes name).bind_answers (answers_parse bytes name) ?_
  intro s st hkind e st' hrun
  dsimp only at hrun
  split at hrun
  · have hmade := congrArg Prod.fst hrun
    cases hmade
  · have hlook : (Act.look (·.entries? s)).run.run st = (.ok (st.heap.entries? s), st) := rfl
    have hname : (Act.look (·.kindName s)).run.run st = (.ok (st.heap.kindName s), st) := rfl
    rw [Act.run_bind, hlook] at hrun
    dsimp only at hrun
    split at hrun
    · cases congrArg Prod.fst hrun
    · rw [Act.run_bind, hname] at hrun
      refine failsAs_malformed name (fun kind hfault => ?_) st e st' hrun
      obtain rfl := ContentFault.notMapping.inj hfault
      exact hkind

/-- Parsing a mapping prints. -/
theorem prints_parseMapping (bytes : List UInt8) (name : String) :
    (parseMapping bytes name).Prints host :=
  (silent_parseMapping bytes name).prints (failsAs_parseMapping bytes name)

end Document

end Stratum
