import Stratum.Act

/-!
# What acts do

The outcome of an act that is put together from others, and two kinds of acts that do less than they
might: those that do nothing but tell the logger lines, and those that tell it nothing. What such an
act comes to does not depend on the lines told before. Of other acts it is said which failures they
may end with, and what is so of whatever they answer with.
-/

namespace Stratum.Act

variable {α β : Type}

/-! ## Acts put together -/

/-- A step and what follows it: a failure ends both. -/
theorem run_bind {σ ε α β : Type} (x : ExceptT ε (StateM σ) α) (f : α → ExceptT ε (StateM σ) β)
    (s : σ) :
    (x >>= f).run.run s = match x.run.run s with
      | (.ok a, s) => (f a).run.run s
      | (.error e, s) => (.error e, s) := by
  show (ExceptT.bind x f).run.run s = _
  simp only [ExceptT.bind, ExceptT.mk, ExceptT.run]
  show StateT.bind x (ExceptT.bindCont f) s = _
  simp only [StateT.bind, StateT.run]
  rcases x s with ⟨e | a, s⟩ <;> rfl

/-- A step that may fail. -/
theorem run_makeOr (e : Failure) (f : Heap → Option (α × Heap)) (st : Store) :
    (makeOr e f).run.run st = match f st.heap with
      | none => (.error e, st)
      | some (a, heap) => (.ok a, { st with heap }) := by
  have hget : (get : Act Store).run.run st = (.ok st, st) := rfl
  unfold makeOr
  rw [run_bind, hget]
  dsimp only
  rcases f st.heap with _ | ⟨a, heap⟩ <;> rfl

/-- An act whose failures are handled. -/
theorem run_tryCatch (act : Act α) (handle : Failure → Act α) (st : Store) :
    (tryCatch act handle).run.run st = match act.run.run st with
      | (.ok a, st) => (.ok a, st)
      | (.error e, st) => (handle e).run.run st := by
  show (ExceptT.tryCatch act handle).run.run st = _
  simp only [ExceptT.tryCatch, ExceptT.mk, ExceptT.run]
  rw [StateT.run_bind]
  rcases StateT.run act st with ⟨e | a, st⟩ <;> rfl

/-! ## Acts that only tell lines -/

/-- An act comes to a result and tells lines, whatever was done before, and does nothing else. -/
def Tells (act : Act α) (r : Except Failure α) (lines : List Line) : Prop :=
  ∀ s : Store, act.run.run s = (r, { s with log := s.log ++ lines })

/-- An act does nothing but tell lines. -/
def OnlyTells (act : Act α) : Prop := ∃ r lines, act.Tells r lines

/-- What an act comes to if nothing was done before. -/
def result (act : Act α) : Except Failure α := (act.run.run .empty).1

/-- The lines that an act tells if nothing was done before. -/
def lines (act : Act α) : List Line := (act.run.run .empty).2.log

variable {x act : Act α} {f : α → Act β} {a : α} {e : Failure} {r : Except Failure β}
  {told told' : List Line}

/-- An act that does nothing but tell lines tells its own. -/
theorem OnlyTells.tells (h : act.OnlyTells) : act.Tells act.result act.lines := by
  obtain ⟨r, told, htells⟩ := h
  have hempty := htells .empty
  have hresult : act.result = r := by rw [result, hempty]
  have hlines : act.lines = told := by
    rw [lines, hempty]
    exact List.nil_append told
  rwa [hresult, hlines]

/-- An answer tells nothing. -/
theorem tells_pure (a : α) : Tells (pure a) (.ok a) [] := by
  intro s
  rw [List.append_nil]
  rfl

/-- A failure tells nothing. -/
theorem tells_throw (e : Failure) : Tells (throw e : Act α) (.error e) [] := by
  intro s
  rw [List.append_nil]
  rfl

/-- Telling the logger tells one line. -/
theorem tells_tell (level : Level) (topic message : String) :
    Tells (tell level topic message) (.ok ()) [⟨level, topic, message⟩] := fun _ => rfl

/-- What follows an answer tells its lines behind those before. -/
theorem Tells.bind (hx : x.Tells (.ok a) told) (hf : (f a).Tells r told') :
    (x >>= f).Tells r (told ++ told') := by
  intro s
  rw [run_bind, hx s]
  dsimp only
  rw [hf, List.append_assoc]

/-- Nothing follows a failure. -/
theorem Tells.bind_error (hx : x.Tells (.error e) told) : (x >>= f).Tells (.error e) told := by
  intro s
  rw [run_bind, hx s]

/-- An answer does nothing. -/
theorem onlyTells_pure (a : α) : OnlyTells (pure a) := ⟨_, _, tells_pure a⟩

/-- A failure does nothing. -/
theorem onlyTells_throw (e : Failure) : OnlyTells (throw e : Act α) := ⟨_, _, tells_throw e⟩

/-- Telling the logger does no more than that. -/
theorem onlyTells_tell (level : Level) (topic message : String) :
    OnlyTells (tell level topic message) := ⟨_, _, tells_tell level topic message⟩

/-- Acts that do nothing but tell lines do so one after the other. -/
theorem OnlyTells.bind (hx : x.OnlyTells) (hf : ∀ a, (f a).OnlyTells) : (x >>= f).OnlyTells := by
  obtain ⟨r, told, hx⟩ := hx
  cases r with
  | error e => exact ⟨_, _, hx.bind_error⟩
  | ok a =>
    obtain ⟨r', told', hf⟩ := hf a
    exact ⟨r', told ++ told', hx.bind hf⟩

/-- Of two acts that do nothing but tell lines, the second one's result counts unless the first
fails. -/
theorem OnlyTells.result_bind (hx : x.OnlyTells) (hf : ∀ a, (f a).OnlyTells) :
    (x >>= f).result = match x.result with
      | .ok a => (f a).result
      | .error e => .error e := by
  unfold result
  rw [run_bind, hx.tells]
  dsimp only
  rcases x.result with e | a
  · rfl
  · dsimp only
    rw [(hf a).tells, (hf a).tells]

/-- What only reports an answer and gives it on leaves the result as it is. -/
theorem OnlyTells.result_bind_report {x : Act α} {report : α → Act α} (hx : x.OnlyTells)
    (hreport : ∀ a, ∃ lines, (report a).Tells (.ok a) lines) :
    (x >>= report).result = x.result := by
  have honly : ∀ a, (report a).OnlyTells := fun a => ⟨_, hreport a⟩
  rw [hx.result_bind honly]
  rcases x.result with e | a
  · rfl
  · obtain ⟨lines, htells⟩ := hreport a
    dsimp only
    rw [result, htells]

/-! ## Acts that tell nothing -/

/-- An act tells the logger nothing, and what it comes to does not depend on what was told. -/
def Silent (act : Act α) : Prop :=
  ∀ heap, ∃ r heap', ∀ log, act.run.run ⟨heap, log⟩ = (r, ⟨heap', log⟩)

/-- An answer tells nothing. -/
theorem silent_pure (a : α) : Silent (pure a) := fun heap => ⟨_, heap, fun _ => rfl⟩

/-- A failure tells nothing. -/
theorem silent_throw (e : Failure) : Silent (throw e : Act α) := fun heap => ⟨_, heap, fun _ => rfl⟩

/-- A reading of the heap tells nothing. -/
theorem silent_look (f : Heap → α) : Silent (look f) := fun heap =>
  ⟨.ok (f heap), heap, fun _ => rfl⟩

/-- Making objects tells nothing. -/
theorem silent_make (f : Heap → α × Heap) : Silent (make f) := fun heap =>
  ⟨.ok (f heap).1, (f heap).2, fun _ => rfl⟩

/-- Acts that tell nothing do so one after the other. -/
theorem Silent.bind {x : Act α} {f : α → Act β} (hx : x.Silent) (hf : ∀ a, (f a).Silent) :
    (x >>= f).Silent := by
  intro heap
  obtain ⟨r, heap', hx⟩ := hx heap
  cases r with
  | error e =>
    refine ⟨.error e, heap', fun log => ?_⟩
    rw [run_bind, hx log]
  | ok a =>
    obtain ⟨r', heap'', hf⟩ := hf a heap'
    refine ⟨r', heap'', fun log => ?_⟩
    rw [run_bind, hx log]
    exact hf log

/-- An answer that may be a failure is given without telling anything. -/
theorem silent_ofExcept (r : Except Failure α) : (ofExcept r).Silent := by
  cases r with
  | ok a => exact silent_pure a
  | error e => exact silent_throw e

/-- An act that tells nothing leaves the lines as they are. -/
theorem Silent.log {act : Act α} (h : act.Silent) (st : Store) :
    (act.run.run st).2.log = st.log := by
  obtain ⟨r, heap, hrun⟩ := h st.heap
  exact congrArg (fun p => p.2.log) (hrun st.log)

/-! ## Failures of acts -/

/-- An act ends with no other failures than some. -/
def FailsAs (P : Failure → Prop) (act : Act α) : Prop :=
  ∀ st e st', act.run.run st = (.error e, st') → P e

section Failures

variable {P Q : Failure → Prop} {x act : Act α} {f : α → Act β} {e : Failure}

/-- An answer is no failure. -/
theorem failsAs_pure (a : α) : FailsAs P (pure a) := by
  intro st e st' h
  cases congrArg Prod.fst h

/-- A failure is itself. -/
theorem failsAs_throw (h : P e) : FailsAs P (throw e : Act α) := by
  intro st e' st' h'
  obtain rfl := Except.error.inj (congrArg Prod.fst h')
  exact h

/-- Telling the logger does not fail. -/
theorem failsAs_tell (level : Level) (topic message : String) :
    FailsAs P (tell level topic message) := by
  intro st e st' h
  cases congrArg Prod.fst h

/-- A reading of the heap does not fail. -/
theorem failsAs_look (g : Heap → α) : FailsAs P (look g) := by
  intro st e st' h
  cases congrArg Prod.fst h

/-- Making objects does not fail. -/
theorem failsAs_make (g : Heap → α × Heap) : FailsAs P (make g) := by
  intro st e st' h
  cases congrArg Prod.fst h

/-- An answer that may be a failure fails as it says. -/
theorem failsAs_ofExcept {r : Except Failure α} (h : ∀ e, r = .error e → P e) :
    FailsAs P (ofExcept r) := by
  cases r with
  | ok a => exact failsAs_pure a
  | error e => exact failsAs_throw (h e rfl)

/-- Acts one after the other fail as one of them does. -/
theorem FailsAs.bind (hx : x.FailsAs P) (hf : ∀ a, (f a).FailsAs P) : (x >>= f).FailsAs P := by
  intro st e st' h
  rw [run_bind] at h
  rcases hrun : x.run.run st with ⟨e' | a, st₁⟩
  · rw [hrun] at h
    obtain rfl := Except.error.inj (congrArg Prod.fst h)
    exact hx st e' st₁ hrun
  · rw [hrun] at h
    exact hf a st₁ e st' h

/-- Failures are handled by acts that fail as they may. -/
theorem FailsAs.tryCatch {handle : Failure → Act α} (hx : x.FailsAs Q)
    (hhandle : ∀ e, Q e → (handle e).FailsAs P) :
    (MonadExcept.tryCatch x handle : Act α).FailsAs P := by
  intro st e st' h
  rw [run_tryCatch] at h
  rcases hrun : x.run.run st with ⟨e' | a, st₁⟩
  · rw [hrun] at h
    exact hhandle e' (hx st e' st₁ hrun) st₁ e st' h
  · rw [hrun] at h
    cases congrArg Prod.fst h

/-- What fails as little as it may also fails as more allows. -/
theorem FailsAs.mono (h : act.FailsAs P) (hPQ : ∀ e, P e → Q e) : act.FailsAs Q :=
  fun st e st' hrun => hPQ e (h st e st' hrun)

end Failures

/-! ## Answers of acts -/

section Answers

variable {Q : α → Store → Prop} {Q' : β → Store → Prop} {x act : Act α} {f : α → Act β}

/-- Whatever an act answers with is so in the store that it leaves. -/
def Answers (Q : α → Store → Prop) (act : Act α) : Prop :=
  ∀ st a st', act.run.run st = (.ok a, st') → Q a st'

/-- An answer that is so in every store. -/
theorem answers_pure {a : α} (h : ∀ st, Q a st) : Answers Q (pure a) := by
  intro st a' st' hrun
  obtain ⟨hok, rfl⟩ := Prod.mk.inj hrun
  obtain rfl := Except.ok.inj hok
  exact h st

/-- A failure is no answer. -/
theorem answers_throw (e : Failure) : Answers Q (throw e : Act α) := by
  intro st a st' hrun
  cases congrArg Prod.fst hrun

/-- What follows an act decides. -/
theorem answers_bind (h : ∀ a, (f a).Answers Q') : (x >>= f).Answers Q' := by
  intro st b st' hrun
  rw [run_bind] at hrun
  rcases hx : x.run.run st with ⟨e | a, st₁⟩
  · rw [hx] at hrun
    cases congrArg Prod.fst hrun
  · rw [hx] at hrun
    exact h a st₁ b st' hrun

/-- An answer that is given on changed. -/
theorem Answers.map (h : x.Answers Q) {g : α → β} (hg : ∀ a st, Q a st → Q' (g a) st) :
    (do return g (← x) : Act β).Answers Q' := by
  intro st b st' hrun
  rw [run_bind] at hrun
  rcases hx : x.run.run st with ⟨e | a, st₁⟩
  · rw [hx] at hrun
    cases congrArg Prod.fst hrun
  · rw [hx] at hrun
    obtain ⟨hok, rfl⟩ := Prod.mk.inj hrun
    obtain rfl := Except.ok.inj hok
    exact hg a st₁ (h st a st₁ hx)

/-- An answer comes from the act or from what handles its failures. -/
theorem Answers.tryCatch (h : act.Answers Q) {handle : Failure → Act α}
    (hhandle : ∀ e, (handle e).Answers Q) :
    (MonadExcept.tryCatch act handle : Act α).Answers Q := by
  intro st a st' hrun
  rw [run_tryCatch] at hrun
  rcases hact : act.run.run st with ⟨e | b, st₁⟩
  · rw [hact] at hrun
    exact hhandle e st₁ a st' hrun
  · rw [hact] at hrun
    obtain ⟨hok, rfl⟩ := Prod.mk.inj hrun
    obtain rfl := Except.ok.inj hok
    exact h st b st₁ hact

/-- What follows an act may fail with what its answers allow. -/
theorem FailsAs.bind_answers {P : Failure → Prop} (hx : x.FailsAs P) (hanswers : x.Answers Q)
    (hf : ∀ a st, Q a st → ∀ e st', (f a).run.run st = (.error e, st') → P e) :
    (x >>= f).FailsAs P := by
  intro st e st' hrun
  rw [run_bind] at hrun
  rcases hact : x.run.run st with ⟨e' | a, st₁⟩
  · rw [hact] at hrun
    obtain rfl := Except.error.inj (congrArg Prod.fst hrun)
    exact hx st e' st₁ hact
  · rw [hact] at hrun
    exact hf a st₁ (hanswers st a st₁ hact) e st' hrun

end Answers

end Stratum.Act
