import Stratum.Proofs.Engine.SearchFailures
import Stratum.Proofs.Text.Utf8

/-!
# Raw text

What a request for the raw text of a file comes to is decided by the stream that is found for the
file: its bytes are decoded as they are, so that the text is the one whose UTF-8 they are, and bytes
that are no text's are refused (`Resolver.raw_text_exact`).
-/

namespace Stratum

open Text

/-- A getter answers what it computes, if the cache has no answer. -/
theorem Search.Computes.answer_fetch {now : Moment} {key : CacheKey} {q : EngineState} {st : Store}
    (h : Computes now key q st) (compute : Act (Option Slot)) :
    ((EngineAct.fetch now key compute).run.run q).1 = (compute.run.run st).1 := by
  obtain ⟨cache, flight, generation, c, hrefresh, hlookup⟩ := h
  rw [EngineAct.run_fetch, hrefresh]
  dsimp only
  rw [hlookup]
  dsimp only
  rcases compute.run.run st with ⟨e | v, st'⟩
  · rfl
  · rfl

namespace Resolver

variable {r : Resolver} {t : FileTree} {w : Surroundings} {filename hint s : String}
  {found : Option Stream} {e : Failure}

/-- The raw text of a file, by the stream that is found for it. -/
def textOf (filename : String) (found : Option Stream) : Except Failure (Option String) :=
  match found with
  | none => .ok none
  | some stream =>
    match stream.content with
    | .error _ => .ok none
    | .ok bytes =>
      match Utf8.decode bytes with
      | .ok cs => .ok (some (String.ofList cs))
      | .error fault =>
        .error (.malformed ⟨.notText fault, describe stream filename, describe stream filename⟩)

/-- The stream that a search finds decides the raw text. -/
theorem run_resolveString (hfound : r.search.found t filename hint = .ok found) (st : Store) :
    ((r.resolveString t filename hint).run.run st).1 = textOf filename found := by
  rw [resolveString, Act.run_bind, r.search.tells_locate, hfound]
  unfold textOf
  rcases found with _ | stream
  · rfl
  · dsimp only
    rcases stream.content with refusal | bytes
    · rfl
    · dsimp only
      rcases Utf8.decode bytes with fault | cs
      · rfl
      · rfl

/-- The raw text is the one whose UTF-8 the stream holds. -/
theorem textOf_eq_some_iff : textOf filename found = .ok (some s) ↔
    ∃ stream, found = some stream ∧ stream.content = .ok (Utf8.encode s.toList) := by
  unfold textOf
  rcases found with _ | stream
  · simp
  · rcases hcontent : stream.content with refusal | bytes
    · simp [hcontent]
    · rcases hdecode : Utf8.decode bytes with fault | cs
      · have hne : bytes ≠ Utf8.encode s.toList := by
          intro hbytes
          cases hdecode.symm.trans (Utf8.decode_eq_ok_iff.2 hbytes)
        simp [hcontent, hdecode, hne]
      · obtain rfl := Utf8.decode_eq_ok_iff.1 hdecode
        simp [hcontent, hdecode, Utf8.encode_injective.eq_iff, String.ext_iff]

/-- There is no raw text of what is not found or cannot be read. -/
theorem textOf_eq_none_iff : textOf filename found = .ok none ↔
    found = none ∨ ∃ stream refusal, found = some stream ∧ stream.content = .error refusal := by
  unfold textOf
  rcases found with _ | stream
  · simp
  · rcases hcontent : stream.content with refusal | bytes
    · simp [hcontent]
    · rcases hdecode : Utf8.decode bytes with fault | cs
      · simp [hcontent, hdecode]
      · simp [hcontent, hdecode]

/-- The raw text is refused for bytes that cannot be decoded, and for nothing else. -/
theorem textOf_eq_error_iff : textOf filename found = .error e ↔
    ∃ stream bytes fault, found = some stream ∧ stream.content = .ok bytes ∧
      Utf8.decode bytes = .error fault ∧
      e = .malformed ⟨.notText fault, describe stream filename, describe stream filename⟩ := by
  unfold textOf
  rcases found with _ | stream
  · simp
  · rcases hcontent : stream.content with refusal | bytes
    · simp [hcontent]
    · rcases hdecode : Utf8.decode bytes with fault | cs
      · simp [hcontent, hdecode, eq_comm]
      · simp [hcontent, hdecode]

/-- An answer is the raw text of what is found. -/
structure IsRawText (filename : String) (found : Option Stream)
    (answer : Except Failure (Option Slot)) : Prop where
  /-- It is a text if the stream holds that text's UTF-8, with nothing changed or left out. -/
  text : ∀ s : String, answer = .ok (some (.atom (.text s))) ↔
    ∃ stream, found = some stream ∧ stream.content = .ok (Utf8.encode s.toList)
  /-- No other value is an answer. -/
  only : ∀ slot, answer = .ok (some slot) → ∃ s, slot = .atom (.text s)
  /-- It is none if nothing is found or the stream cannot be read. -/
  absent : answer = .ok none ↔
    found = none ∨ ∃ stream refusal, found = some stream ∧ stream.content = .error refusal
  /-- It is a failure if the stream holds what is not valid UTF-8. -/
  refused : (∃ e, answer = .error e) ↔
    ∃ stream bytes, found = some stream ∧ stream.content = .ok bytes ∧ ¬Utf8.Valid bytes
  /-- Every failure is malformed content, at the fault that decoding ends with. -/
  fault : ∀ e, answer = .error e ↔ ∃ stream bytes fault, found = some stream ∧
    stream.content = .ok bytes ∧ Utf8.decode bytes = .error fault ∧
      e = .malformed ⟨.notText fault, describe stream filename, describe stream filename⟩

/-- A raw text as an answer of the cache. -/
def asAnswer (a : Except Failure (Option String)) : Except Failure (Option Slot) :=
  a.map (Option.map fun s => .atom (.text s))

/-- Only a text becomes a value. -/
theorem asAnswer_eq_some_iff {a : Except Failure (Option String)} {slot : Slot} :
    asAnswer a = .ok (some slot) ↔ ∃ s, a = .ok (some s) ∧ slot = .atom (.text s) := by
  rcases a with e | _ | s <;> simp [asAnswer, Except.map, eq_comm]

/-- No text stays none. -/
theorem asAnswer_eq_none_iff {a : Except Failure (Option String)} :
    asAnswer a = .ok none ↔ a = .ok none := by
  rcases a with e | _ | s <;> simp [asAnswer, Except.map]

/-- A failure stays what it is. -/
theorem asAnswer_eq_error_iff {a : Except Failure (Option String)} :
    asAnswer a = .error e ↔ a = .error e := by
  rcases a with e' | _ | s <;> simp [asAnswer, Except.map]

/-- The answer to a request for raw text is the raw text of what is found. -/
theorem isRawText_asAnswer (filename : String) (found : Option Stream) :
    IsRawText filename found (asAnswer (textOf filename found)) where
  text s := by
    rw [asAnswer_eq_some_iff, ← textOf_eq_some_iff]
    exact ⟨fun ⟨_, h, heq⟩ => by cases heq; exact h, fun h => ⟨s, h, rfl⟩⟩
  only slot h := by
    obtain ⟨s, -, hslot⟩ := asAnswer_eq_some_iff.1 h
    exact ⟨s, hslot⟩
  absent := asAnswer_eq_none_iff.trans textOf_eq_none_iff
  refused := by
    constructor
    · rintro ⟨e, he⟩
      obtain ⟨stream, bytes, fault, hfound, hcontent, hdecode, -⟩ :=
        textOf_eq_error_iff.1 (asAnswer_eq_error_iff.1 he)
      exact ⟨stream, bytes, hfound, hcontent, Utf8.decode_eq_error_iff.1 ⟨fault, hdecode⟩⟩
    · rintro ⟨stream, bytes, hfound, hcontent, hinvalid⟩
      obtain ⟨fault, hdecode⟩ := Utf8.decode_eq_error_iff.2 hinvalid
      exact ⟨_, asAnswer_eq_error_iff.2
        (textOf_eq_error_iff.2 ⟨stream, bytes, fault, hfound, hcontent, hdecode, rfl⟩)⟩
  fault e := asAnswer_eq_error_iff.trans textOf_eq_error_iff

/-- A request for raw text computes what is found for it. -/
theorem run_getString (hfound : r.search.found w.files filename hint = .ok found)
    {q : EngineState} {st : Store}
    (hcomputes : Search.Computes w.now (.string filename hint) q st) :
    ((getString r w filename hint).run.run q).1 = asAnswer (textOf filename found) := by
  rw [getString, hcomputes.answer_fetch, Act.run_bind, ← run_resolveString hfound st]
  rcases (r.resolveString w.files filename hint).run.run st with ⟨e | a, st'⟩
  · rfl
  · rfl

/-- Raw text is exact. Whatever a search finds for a file, asking for its stream answers the same,
and asking for its text, if the cache has no answer, answers the text whose UTF-8 the stream holds,
nothing where there is no stream that can be read, and a failure where the stream holds what is not
valid UTF-8. Bytes are decoded to a text exactly if they are its encoding, so that the two undo each
other between all texts and all valid bytes. Neither a surrogate, nor a number beyond the last code
point, nor an overlong form, nor a character that is cut short is anywhere in valid bytes. -/
theorem raw_text_exact {q₀ : EngineState}
    (hstream : ((getStream r w filename hint).run.run q₀).1 = .ok found) :
    (∀ q, ((getStream r w filename hint).run.run q).1 = .ok found) ∧
    (∀ q st, Search.Computes w.now (.string filename hint) q st →
      IsRawText filename found ((getString r w filename hint).run.run q).1) ∧
    (∀ bs cs, Utf8.decode bs = .ok cs ↔ bs = Utf8.encode cs) ∧
    (∀ bs, Utf8.Valid bs ↔ ∃ cs, bs = Utf8.encode cs) ∧
    (∀ s : String, Utf8.encode s.toList = s.toUTF8.data.toList) ∧
    (∀ cs w n rest, Utf8.Forms w n → Utf8.Valid (Utf8.encode cs ++ (w ++ rest)) →
      n.isValidChar ∧ Utf8.least w.length ≤ n) ∧
    ∀ cs c w u, w ++ u = Utf8.encodeChar c → w ≠ [] → u ≠ [] →
      ¬Utf8.Valid (Utf8.encode cs ++ w) := by
  have hrun : ∀ q, ((getStream r w filename hint).run.run q).1 =
      r.search.found w.files filename hint := by
    intro q
    rw [getStream, EngineAct.run_ofAct, r.search.tells_locate]
  have hfound : r.search.found w.files filename hint = .ok found := (hrun q₀).symm.trans hstream
  refine ⟨fun q => (hrun q).trans hfound, ?_, ?_, ?_, ?_, ?_, ?_⟩
  · intro q st hcomputes
    rw [run_getString hfound hcomputes]
    exact isRawText_asAnswer filename found
  · exact fun bs cs => Utf8.decode_eq_ok_iff
  · exact fun bs => Utf8.valid_iff
  · exact Utf8.encode_toList
  · exact fun cs w n rest hforms hvalid => hforms.of_valid hvalid
  · exact fun cs c w u hcut hw hu => Utf8.not_valid_of_cut hcut hw hu

end Resolver

namespace MarkedFile

/-- A file that begins with a byte order mark and ends a line with a carriage return. -/
def bytes : List UInt8 := [0xef, 0xbb, 0xbf, 0x20, 0x61, 0x0d, 0x0a]

/-- The file in a folder. -/
def files : FileTree := ⟨[(["c"], .folder), (["c", "a"], .file bytes)], []⟩

/-- A search in the folder. -/
def resolver : Resolver := ⟨⟨["/c"], none⟩, Overlay.nothing⟩

/-- The surroundings. -/
def noon : Surroundings := ⟨files, .inMay 0 12 0⟩

/-- The text of the file begins with the mark and ends with the carriage return and the line
feed. -/
theorem mark_is_kept :
    ((Resolver.getStream resolver noon "a" "").run.run ⟨.empty, .empty⟩).1 =
        .ok (some ⟨some "/c/a", .ok bytes⟩) ∧
      (∃ st, Search.Computes noon.now (.string "a" "") ⟨.empty, .empty⟩ st) ∧
      ((Resolver.getString resolver noon "a" "").run.run ⟨.empty, .empty⟩).1 =
        .ok (some (.atom (.text "\uFEFF a\r\n"))) := by
  have hstream : ((Resolver.getStream resolver noon "a" "").run.run ⟨.empty, .empty⟩).1 =
      .ok (some ⟨some "/c/a", .ok bytes⟩) := rfl
  obtain ⟨st, hcomputes⟩ : ∃ st, Search.Computes noon.now (.string "a" "") ⟨.empty, .empty⟩ st :=
    Search.computes_empty rfl _ _
  have hraw := (Resolver.raw_text_exact hstream).2.1 ⟨.empty, .empty⟩ st hcomputes
  exact ⟨hstream, ⟨st, hcomputes⟩, (hraw.text _).2 ⟨_, rfl, by decide +kernel⟩⟩

end MarkedFile
end Stratum
