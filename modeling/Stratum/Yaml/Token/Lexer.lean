import Stratum.Yaml.Token.Property
import Stratum.Yaml.Token.Scalar

/-!
# Lexing

The tokens of a text. A token may turn out to be a key only when the colon behind it is met; then a
key token is put in front of it, and in block context perhaps the start of a mapping. Such a
candidate is kept for each level of flow collections. It lapses at the end of its line or after 1024
characters, and a token that nothing but a key can be may not lapse. Tokens are handed out only when
no candidate is left among them.
-/

namespace Stratum.Yaml

/-- A token that may turn out to be a key, by its place among all tokens. -/
structure Candidate where
  place : Nat
  required : Bool
  index : Nat
  mark : Mark

/-- What a lexer knows. The text has `size` characters; `taken` tokens have been handed out, and
`queue` holds those that have not. Block collections are open at the columns `indents`, the
innermost at `indent`, and `level` flow collections are open. -/
structure Lexer where
  cursor : Cursor
  size : Nat
  taken : Nat
  queue : List Token
  indent : Int
  indents : List Int
  level : Int
  keyAllowed : Bool
  candidates : List (Int × Candidate)
  done : Bool

/-- A step of a lexer. -/
abbrev Lexing (α : Type) := StateT Lexer (Except Fault) α

namespace Lexer

/-- The lexer at the start of a text. -/
def ofSource (s : Source) : Lexer :=
  ⟨.ofSource s, s.chars.length + 1, 0, [], -1, [], 0, true, [], false⟩

/-- A step that only reads. -/
def reading {α : Type} (r : Reading α) : Lexing α := fun l =>
  (r l.cursor).map fun (a, c) => (a, { l with cursor := c })

/-- A lexical fault at the next character. -/
def fail {α : Type} : Lexing α := reading Reading.fail

/-- The mark of the next character. -/
def mark : Lexing Mark := reading Reading.mark

/-- The next character. -/
def next : Lexing (Option Char) := reading (Reading.peek 0)

/-- Whether no flow collection is open. -/
def inBlock : Lexing Bool := do return (← get).level == 0

/-- Adds a token at the end of the queue. -/
def push (t : Token) : Lexing Unit := modify fun l => { l with queue := l.queue ++ [t] }

/-- Adds a token without characters. -/
def pushEmpty (kind : TokenKind) : Lexing Unit := do
  let m ← mark
  push ⟨kind, m, m⟩

/-- Adds a token of so many characters. -/
def pushMark (kind : TokenKind) (length : Nat) : Lexing Unit := do
  let start ← mark
  reading (Reading.skip length)
  push ⟨kind, start, ← mark⟩

/-- Whether a key that is not marked as one may start at the next character. -/
def allowKey (allowed : Bool) : Lexing Unit := modify fun l => { l with keyAllowed := allowed }

/-! ## Candidates -/

/-- Whether a candidate is too far back to be a key. -/
def Candidate.lapsed (k : Candidate) (c : Cursor) : Bool :=
  k.mark.line != c.mark.line || k.index + 1024 < c.index

/-- Drops the candidates that lapsed; a required one may not. -/
def dropLapsed : Lexing Unit := do
  let l ← get
  let (old, kept) := l.candidates.partition fun (_, k) => Candidate.lapsed k l.cursor
  if old.any fun (_, k) => k.required then fail
  else set { l with candidates := kept }

/-- Drops the candidate of the current level; a required one may not be dropped. -/
def dropCandidate : Lexing Unit := do
  let l ← get
  let (old, kept) := l.candidates.partition fun (level, _) => level == l.level
  if old.any fun (_, k) => k.required then fail
  else set { l with candidates := kept }

/-- Makes the token at the next character a candidate if a key may start there. It has to be a key
if it stands where the entries of the block around it do. -/
def saveCandidate : Lexing Unit := do
  if (← get).keyAllowed then
    dropCandidate
    modify fun l =>
      let required := l.level == 0 && l.indent == l.cursor.mark.column
      let k : Candidate := ⟨l.taken + l.queue.length, required, l.cursor.index, l.cursor.mark⟩
      { l with candidates := l.candidates ++ [(l.level, k)] }

/-- Whether the first token in the queue may still turn out to be a key. -/
def isCandidateFirst (l : Lexer) : Bool :=
  l.candidates.any (fun (_, k) => k.place == l.taken) &&
    l.candidates.all fun (_, k) => l.taken ≤ k.place

/-! ## Indentation -/

/-- The columns that are left when those beyond a column are closed, and how many were closed. -/
def closeBeyond (column : Int) : (indent : Int) → List Int → Int × List Int × Nat
  | indent, [] => (indent, [], 0)
  | indent, outer :: rest =>
    if column < indent then
      let (i, is, n) := closeBeyond column outer rest
      (i, is, n + 1)
    else (indent, outer :: rest, 0)

/-- Closes the block collections that stand further in than a column. -/
def closeBlocks (column : Int) : Lexing Unit := do
  if ← inBlock then
    let m ← mark
    modify fun l =>
      let (indent, indents, n) := closeBeyond column l.indent l.indents
      { l with
        indent, indents, queue := l.queue ++ List.replicate n ⟨.blockEnd, m, m⟩ }

/-- Opens a block collection at a column, if none is open there or further in. -/
def openBlock (column : Nat) : Lexing Bool := do
  let l ← get
  if l.indent < column then
    set { l with indent := column, indents := l.indent :: l.indents }
    return true
  else return false

/-! ## Tokens -/

/-- Passes over blanks, comments and ends of lines. In block context a key may start on a new
line. -/
def skipGap : (fuel : Nat) → Lexing Unit
  | 0 => return ()
  | fuel + 1 => do
    reading Reading.skipSpaces
    if (← next) == some '#' then reading (Reading.skipWhile (!isBreak ·))
    match ← reading Reading.lineBreak? with
    | none => return ()
    | some _ =>
      if ← inBlock then allowKey true
      skipGap fuel

/-- Leaves all block collections before a token that stands between documents. -/
def leaveDocument : Lexing Unit := do
  closeBlocks (-1)
  dropCandidate
  allowKey false

/-- The end of the text. -/
def streamEnd : Lexing Unit := do
  leaveDocument
  modify fun l => { l with candidates := [], done := true }
  pushEmpty .streamEnd

/-- The start of a flow collection, which may be a key. -/
def flowStart (kind : TokenKind) : Lexing Unit := do
  saveCandidate
  modify fun l => { l with level := l.level + 1, keyAllowed := true }
  pushMark kind 1

/-- The end of a flow collection. -/
def flowEnd (kind : TokenKind) : Lexing Unit := do
  dropCandidate
  modify fun l => { l with level := l.level - 1, keyAllowed := false }
  pushMark kind 1

/-- The comma between the entries of a flow collection. -/
def flowEntry : Lexing Unit := do
  allowKey true
  dropCandidate
  pushMark .flowEntry 1

/-- Opens a block collection at the next character if need be; an entry has to be allowed there. -/
def openAtEntry (kind : TokenKind) : Lexing Unit := do
  if ← inBlock then
    if !(← get).keyAllowed then fail
    if ← openBlock (← mark).column then pushEmpty kind

/-- The hyphen of an entry. -/
def blockEntry : Lexing Unit := do
  openAtEntry .blockSequenceStart
  allowKey true
  dropCandidate
  pushMark .blockEntry 1

/-- The question mark of a key. -/
def key : Lexing Unit := do
  openAtEntry .blockMappingStart
  allowKey (← inBlock)
  dropCandidate
  pushMark .key 1

/-- The queue with a token put in at a place. -/
def insertAt (t : Token) (place : Nat) (l : Lexer) : Lexer :=
  { l with queue := l.queue.insertIdx (place - l.taken) t }

/-- The colon of a value: the candidate of the current level is a key. -/
def value : Lexing Unit := do
  let l ← get
  match l.candidates.find? fun (level, _) => level == l.level with
  | some (_, k) =>
    modify fun l => { l with candidates := l.candidates.filter fun (level, _) => level != l.level }
    modify (insertAt ⟨.key, k.mark, k.mark⟩ k.place)
    if ← inBlock then
      if ← openBlock k.mark.column then
        modify (insertAt ⟨.blockMappingStart, k.mark, k.mark⟩ k.place)
    allowKey false
  | none =>
    openAtEntry .blockMappingStart
    allowKey (← inBlock)
    dropCandidate
  pushMark .value 1

/-- A token that may be a key and behind which no key may start. -/
def word (r : Reading Token) : Lexing Unit := do
  saveCandidate
  allowKey false
  push (← reading r)

/-- A block scalar, behind which a key may start. -/
def blockScalar (folded : Bool) : Lexing Unit := do
  allowKey true
  dropCandidate
  let l ← get
  push (← reading (Reading.blockScalar l.size folded l.indent))

/-- A plain scalar. A key may start behind it if its last line ended there. -/
def plainScalar : Lexing Unit := do
  saveCandidate
  allowKey false
  let l ← get
  let (t, ended) ← reading (Reading.plainScalar l.size (l.level != 0) l.indent)
  allowKey ended
  push t

/-- Whether a gap comes behind the next character. -/
def standsAlone : Lexing Bool := do return isGap (← reading (Reading.peek 1))

/-- Whether a mark of a document stands ahead at the start of a line. -/
def atMark (marks : List Char) : Lexing Bool := do
  if (← mark).column = 0 then reading (Reading.atSeparator [marks]) else return false

/-- A character that cannot start a plain scalar, or only if no gap comes behind it. -/
def isIndicator (c : Char) : Bool := "-?:,[]\x7b\x7d#&*!|>\x27\x22%@\x60".toList.contains c

/-- A plain scalar, if one may start at the next character. -/
def plainStart (c : Char) : Lexing Unit := do
  if !isGap (some c) && !isIndicator c then plainScalar
  else
    let alone ← standsAlone
    if !alone && (c == '-' || ((c == '?' || c == ':') && (← inBlock))) then plainScalar
    else fail

/-- Adds the tokens that the next character starts. -/
def fetchAt (c : Char) : Lexing Unit := do
  let l ← get
  let block := l.level == 0
  match c with
  | '%' =>
    if l.cursor.mark.column = 0 then
      leaveDocument
      push (← reading Reading.directive)
    else plainStart c
  | '.' =>
    if ← atMark Reading.endMark then
      leaveDocument
      pushMark .documentEnd 3
    else plainStart c
  | '[' => flowStart .flowSequenceStart
  | '\x7b' => flowStart .flowMappingStart
  | ']' => flowEnd .flowSequenceEnd
  | '\x7d' => flowEnd .flowMappingEnd
  | ',' => flowEntry
  | '-' =>
    if ← atMark Reading.startMark then
      leaveDocument
      pushMark .documentStart 3
    else if ← standsAlone then blockEntry
    else plainStart c
  | '?' =>
    if !block then key
    else if ← standsAlone then key
    else plainStart c
  | ':' =>
    if !block then value
    else if ← standsAlone then value
    else plainStart c
  | '*' => word (Reading.named .reference)
  | '&' => word (Reading.named .anchor)
  | '!' => word Reading.tag
  | '|' => if block then blockScalar false else plainStart c
  | '>' => if block then blockScalar true else plainStart c
  | '\x27' => word (Reading.quotedScalar l.size false)
  | '\x22' => word (Reading.quotedScalar l.size true)
  | _ => plainStart c

/-- Adds the next tokens to the queue. A byte order mark at the start of the text is passed over. -/
def fetch : Lexing Unit := do
  if (← get).cursor.index = 0 then
    if (← next) == some '\ufeff' then reading (Reading.skip 1)
  skipGap (← get).size
  dropLapsed
  closeBlocks (← mark).column
  match ← next with
  | none => streamEnd
  | some c => fetchAt c

/-- Whether the queue cannot give a token before more of them are fetched. -/
def needsMore : Lexing Bool := do
  if (← get).done then return false
  else if (← get).queue.isEmpty then return true
  else
    dropLapsed
    return isCandidateFirst (← get)

/-- One step: fetches tokens, or gives the first one. -/
def step : Lexing (Option Token) := do
  if ← needsMore then
    fetch
    return none
  else
    let l ← get
    set { l with taken := l.taken + 1, queue := l.queue.drop 1 }
    return l.queue.head?

/-- The tokens from here on, behind those found so far, and the fault that ends them. -/
def run : (fuel : Nat) → Lexer → (found : List Token) → List Token × Option Fault
  | 0, _, found => (found.reverse, none)
  | fuel + 1, l, found =>
    if l.done && l.queue.isEmpty then (found.reverse, none)
    else match step l with
      | .error fault => (found.reverse, some fault)
      | .ok (t?, l) => run fuel l (t?.toList ++ found)

end Lexer

/-- The tokens of a text, as far as they can be told, and the fault that ends them. Each character
starts at most one step that fetches, and a step adds at most four tokens and the ends of blocks. -/
def Token.ofSource (s : Source) : List Token × Option Fault :=
  Lexer.run (8 * s.chars.length + 16) (.ofSource s) []

end Stratum.Yaml
