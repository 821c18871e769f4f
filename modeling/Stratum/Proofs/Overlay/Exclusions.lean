import Stratum.Overlay
import Stratum.Proofs.Act

/-!
# Exclusion lists

A config may say in a list of texts which configs get no managed values. A provider that is made by
it exempts exactly the names in the list (`Overlay.exempt_by_list`). Anything else in place of the
list is refused, unless it counts as nothing: an empty text, a zero or an empty mapping goes for an
empty list.
-/

namespace Stratum

/-- A text, with surrogates in it or without. -/
def Value.IsText : Value → Prop
  | .atom (.text _) | .atom (.brokenText _) => True
  | _ => False

/-- A list of texts. -/
def Value.IsTexts (v : Value) : Prop := ∃ items, v = .list items ∧ ∀ item ∈ items, item.IsText

/-- A text, one with surrogates in it, or something else. -/
theorem Value.text_cases (v : Value) :
    (∃ s, v = .text s) ∨ (∃ b, v = .atom (.brokenText b)) ∨ ¬ v.IsText := by
  cases v with
  | atom a =>
    cases a with
    | text s => exact .inl ⟨s, rfl⟩
    | brokenText b => exact .inr (.inl ⟨b, rfl⟩)
    | _ => exact .inr (.inr id)
  | _ => exact .inr (.inr id)

namespace Overlay

/-- Something else at the front of a list is refused. -/
theorem namesOf_of_not_isText {v : Value} (h : ¬ v.IsText) (rest : List Value) :
    namesOf (v :: rest) = .error (.misuse .exclusions) := by
  unfold namesOf
  split
  · contradiction
  · rename_i heq
    obtain ⟨rfl, -⟩ := List.cons.inj heq
    exact absurd trivial h
  · rename_i heq
    obtain ⟨rfl, -⟩ := List.cons.inj heq
    exact absurd trivial h
  · rfl

/-- A list is read as the texts in it, or refused because something else is in it. -/
theorem namesOf_cases (items : List Value) :
    (∃ names, namesOf items = .ok names ∧ (∀ item ∈ items, item.IsText) ∧
      ∀ n, n ∈ names ↔ .text n ∈ items) ∨
    namesOf items = .error (.misuse .exclusions) ∧ ∃ item ∈ items, ¬ item.IsText := by
  -- What the rest of the list is read as decides, unless the first item is no text.
  induction items with
  | nil => exact .inl ⟨[], rfl, nofun, fun n => by simp⟩
  | cons v rest ih =>
    rcases v.text_cases with ⟨s, rfl⟩ | ⟨b, rfl⟩ | hv
    · have hread : namesOf (.text s :: rest) = (namesOf rest).map (s :: ·) := rfl
      rw [hread]
      rcases ih with ⟨names, hrest, htexts, hmem⟩ | ⟨hrest, item, hitem, hno⟩
      · rw [hrest]
        exact .inl ⟨s :: names, rfl, List.forall_mem_cons.mpr ⟨trivial, htexts⟩,
          fun n => by simp [hmem]⟩
      · rw [hrest]
        exact .inr ⟨rfl, item, List.mem_cons_of_mem _ hitem, hno⟩
    · have hread : namesOf (.atom (.brokenText b) :: rest) = namesOf rest := rfl
      rw [hread]
      rcases ih with ⟨names, hrest, htexts, hmem⟩ | ⟨hrest, item, hitem, hno⟩
      · exact .inl ⟨names, hrest, List.forall_mem_cons.mpr ⟨trivial, htexts⟩,
          fun n => by simp [hmem]⟩
      · exact .inr ⟨hrest, item, List.mem_cons_of_mem _ hitem, hno⟩
    · exact .inr ⟨namesOf_of_not_isText hv rest, v, List.mem_cons_self, hv⟩

/-- Of a mapping the exclusion list is read, or refused because there is something else in its place
that does not count as nothing. -/
theorem exclusions_cases (es : Entries Value) :
    (∃ names, exclusions (.map es) = .ok names ∧
      (∀ v, es.find? (.text exclusionKey) = some v → v.isVoid = true ∨ v.IsTexts) ∧
      ∀ n, n ∈ names ↔
        ∃ items, es.find? (.text exclusionKey) = some (.list items) ∧ .text n ∈ items) ∨
    exclusions (.map es) = .error (.misuse .exclusions) ∧
      ∃ v, es.find? (.text exclusionKey) = some v ∧ v.isVoid = false ∧ ¬ v.IsTexts := by
  have habsent : ∀ v : Value, none = some v → v.isVoid = true ∨ v.IsTexts :=
    fun v hv => absurd hv.symm (Option.some_ne_none v)
  unfold exclusions
  -- A config without entries is not looked into, and neither is a list that counts as nothing.
  by_cases hvoid : (Value.map es).isVoid = true
  · obtain rfl := List.isEmpty_iff.mp hvoid
    exact .inl ⟨[], rfl, habsent, fun n => by simp [Entries.find?]⟩
  · rw [if_neg hvoid]
    dsimp only [Value.entries?]
    rcases es.find? (.text exclusionKey) with _ | v
    · exact .inl ⟨[], rfl, habsent, fun n => by simp⟩
    · dsimp only
      by_cases hnothing : v.isVoid = true
      · rw [if_pos hnothing]
        refine .inl ⟨[], rfl, ?_, fun n => ⟨fun hn => absurd hn List.not_mem_nil, ?_⟩⟩
        · rintro _ ⟨⟩
          exact .inl hnothing
        · -- A list that counts as nothing is empty.
          rintro ⟨items, ⟨⟩, hmem⟩
          obtain rfl := List.isEmpty_iff.mp hnothing
          exact absurd hmem List.not_mem_nil
      · rw [if_neg hnothing]
        have hsome : v.isVoid = false := Bool.eq_false_iff.mpr hnothing
        cases v with
        | list items =>
          rcases namesOf_cases items with ⟨names, hread, htexts, hmem⟩ | ⟨hread, item, hitem, hno⟩
          · refine .inl ⟨names, hread, ?_, fun n => by simp [hmem]⟩
            rintro _ ⟨⟩
            exact .inr ⟨items, rfl, htexts⟩
          · refine .inr ⟨hread, _, rfl, hsome, ?_⟩
            rintro ⟨_, ⟨⟩, htexts⟩
            exact hno (htexts item hitem)
        | _ =>
          refine .inr ⟨rfl, _, rfl, hsome, ?_⟩
          rintro ⟨_, ⟨⟩, -⟩

/-- A provider is made by what the exclusion list of a config is read as. -/
theorem run_ofConfig (values : Slot) (config : Value) (st : Store) :
    (ofConfig values config).run.run st = match exclusions config with
      | .ok names => (.ok (.managed (st.heap.copy values).1 names),
          ⟨(st.heap.copy values).2, st.log⟩)
      | .error e => (.error e, st) := by
  unfold ofConfig
  rw [Act.run_bind]
  rcases exclusions config with e | names <;> rfl

/-- A config is refused exactly if there is something else in the place of its exclusion list that
does not count as nothing. That is a misuse, and nothing is made. Of every other config a provider
is made that exempts the names in the list and no others, so none if there is no list. -/
theorem exempt_by_list (values : Slot) (es : Entries Value) (st : Store) :
    ((∃ e st', (ofConfig values (.map es)).run.run st = (.error e, st')) ↔
      ∃ v, es.find? (.text exclusionKey) = some v ∧ v.isVoid = false ∧ ¬ v.IsTexts) ∧
    (∀ e st', (ofConfig values (.map es)).run.run st = (.error e, st') →
      e = .misuse .exclusions ∧ st' = st) ∧
    ∀ o st', (ofConfig values (.map es)).run.run st = (.ok o, st') → ∀ n,
      o.isExempt n = true ↔
        ∃ items, es.find? (.text exclusionKey) = some (.list items) ∧ .text n ∈ items := by
  rw [run_ofConfig]
  -- Either the list is read, and it is one of names or counts as nothing, or there is an error and
  -- the store stays as it was.
  rcases exclusions_cases es with ⟨names, hread, hlist, hmem⟩ | ⟨hread, hother⟩
  · rw [hread]
    refine ⟨⟨?_, ?_⟩, ?_, ?_⟩
    · rintro ⟨e, st', heq⟩
      cases congrArg Prod.fst heq
    · rintro ⟨v, hv, hsome, hno⟩
      rcases hlist v hv with hvoid | htexts
      · cases hvoid.symm.trans hsome
      · exact absurd htexts hno
    · intro e st' heq
      cases congrArg Prod.fst heq
    · intro o st' heq n
      obtain rfl := Except.ok.inj (congrArg Prod.fst heq)
      rw [isExempt, List.contains_iff_mem]
      exact hmem n
  · rw [hread]
    refine ⟨⟨fun _ => hother, fun _ => ⟨_, _, rfl⟩⟩, ?_, ?_⟩
    · intro e st' heq
      obtain ⟨he, rfl⟩ := Prod.mk.inj heq
      exact ⟨(Except.error.inj he).symm, rfl⟩
    · intro o st' heq
      cases congrArg Prod.fst heq

end Overlay

/-! Three configs with something under the key of the exclusion list. -/
namespace ListOrNot

/-- A config with a value in the place of its exclusion list. -/
def config (v : Value) : Entries Value := [(.text "a", .atom (.int 1)), (.text exclusionKey, v)]

/-- What comes of making a provider of no values by it. -/
def made (v : Value) : Except Failure Overlay :=
  ((Overlay.ofConfig (.atom .null) (.map (config v))).run.run .empty).1

/-- A list with a name exempts that name only, and a number that is not zero is refused. -/
theorem audit_exempt :
    (∃ o, made (.list [.text "audit"]) = .ok o ∧ o.isExempt "audit" = true ∧
      ¬ o.isExempt "logging" = true) ∧
    ∃ e, made (.atom (.int 5)) = .error e := by
  have hlist (v : Value) :
      Entries.find? (.text exclusionKey) (config v) = some v := rfl
  obtain ⟨-, -, hexempt⟩ :=
    Overlay.exempt_by_list (.atom .null) (config (.list [.text "audit"])) .empty
  obtain ⟨hrefused, -, -⟩ := Overlay.exempt_by_list (.atom .null) (config (.atom (.int 5))) .empty
  have hmade := hexempt _ _ rfl
  refine ⟨⟨_, rfl, (hmade "audit").mpr ⟨_, hlist _, List.mem_cons_self⟩, fun h => ?_⟩, ?_⟩
  · obtain ⟨items, hitems, hmem⟩ := (hmade "logging").mp h
    obtain rfl := Value.list.inj (Option.some.inj ((hlist _).symm.trans hitems))
    simp at hmem
  · have hnumber : ¬ (Value.atom (.int 5)).IsTexts := by
      rintro ⟨_, ⟨⟩, -⟩
    obtain ⟨e, st, hrun⟩ := hrefused.mpr ⟨_, hlist _, rfl, hnumber⟩
    exact ⟨e, congrArg Prod.fst hrun⟩

/-- An empty text is not null and no list of texts, and the config is not refused: the provider that
is made exempts nobody. -/
theorem empty_text_accepted :
    Entries.find? (.text exclusionKey) (config (.text "")) = some (.text "") ∧
    Value.text "" ≠ .null ∧ ¬ (Value.text "").IsTexts ∧
    ∃ o, made (.text "") = .ok o ∧ ∀ n, o.isExempt n = false := by
  refine ⟨rfl, ?_, ?_, _, rfl, fun _ => rfl⟩
  · rintro ⟨⟩
  · rintro ⟨_, ⟨⟩, -⟩

end ListOrNot
end Stratum
