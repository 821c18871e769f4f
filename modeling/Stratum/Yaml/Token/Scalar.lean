import Stratum.Text.CodePoint
import Stratum.Text.Digit
import Stratum.Yaml.Cursor
import Stratum.Yaml.Token

/-!
# Scalars

The scalars of a YAML text: blocks, which keep or fold their lines, scalars in single or double
quotation marks, and plain ones. In the flowing kinds a single end of a line is read as a space, and
of several the first one is dropped.
-/

namespace Stratum.Yaml.Reading

open Text (CodePoint)

/-- The text of a fold: the ends of lines behind the first one, or a space if there are none. -/
def foldedBreaks (first : Char) (others : List Char) : List Char :=
  if first != '\n' then first :: others
  else if others.isEmpty then [' ']
  else others

/-! ## Blocks -/

/-- What happens to the ends of lines behind the last line of a block. -/
inductive Chomping
  | strip
  | clip
  | keep
  deriving DecidableEq, Repr

/-- The chomping that a sign stands for. -/
def Chomping.ofSign? : Option Char → Option Chomping
  | some '+' => some .keep
  | some '-' => some .strip
  | _ => none

/-- A sign for the chomping, if there is one ahead. -/
def chompingSign : Reading (Option Chomping) := do
  let chomping := Chomping.ofSign? (← peek 0)
  if chomping.isSome then skip 1
  return chomping

/-- A digit for the depth of a block, if there is one ahead; it may not be zero. -/
def depthDigit : Reading (Option Nat) := do
  match ← peek 0 with
  | some c =>
    if c == '0' then fail
    else if c.isDigit then
      skip 1
      return some (c.toNat - '0'.toNat)
    else return none
  | none => return none

/-- The signs in the first line of a block, in either order. -/
def blockHeader : Reading (Chomping × Option Nat) := do
  let before ← chompingSign
  let depth ← depthDigit
  let after ← if before.isNone && depth.isSome then chompingSign else pure none
  if endsWord (← peek 0) then return ((before.or after).getD .clip, depth)
  else fail

/-- The empty lines before the first line of a block whose depth is not given: their ends, the
column of the farthest space in them, and the mark behind them. -/
def leadingLines : (fuel : Nat) → (deepest : Nat) → (stop : Mark) → Reading (List Char × Nat × Mark)
  | 0, deepest, stop => return ([], deepest, stop)
  | fuel + 1, deepest, stop => do
    match ← peek 0 with
    | some ' ' =>
      skip 1
      leadingLines fuel (max deepest (← column)) stop
    | _ =>
      match ← lineBreak? with
      | none => return ([], deepest, stop)
      | some c =>
        let (cs, deepest, stop) ← leadingLines fuel deepest (← mark)
        return (c :: cs, deepest, stop)

/-- Passes over spaces until a column is reached. -/
def skipIndent (depth : Nat) : Reading Unit := do
  let c ← get
  let spaces ← run (· == ' ')
  skip (min spaces (depth - c.mark.column))

/-- The ends of the empty lines ahead and the mark behind them. -/
def emptyLines (depth : Nat) : (fuel : Nat) → (stop : Mark) → Reading (List Char × Mark)
  | 0, stop => return ([], stop)
  | fuel + 1, stop => do
    skipIndent depth
    match ← lineBreak? with
    | none => return ([], stop)
    | some c =>
      let (cs, stop) ← emptyLines depth fuel (← mark)
      return (c :: cs, stop)

/-- Whether a line of a block, not its end, stands ahead. -/
def atBlockLine (depth : Nat) : Reading Bool := do
  return (← column) == depth && (← peek 0).isSome

/-- What stands between two lines of a block: the ends of lines as they are, unless the block is
folded and neither line starts with a blank. -/
def betweenLines (folded : Bool) (ending : List Char) (empty : List Char) (blank : Bool) :
    List Char :=
  if folded && ending == ['\n'] && !blank then (if empty.isEmpty then [' '] else empty)
  else ending ++ empty

/-- Whether a space or a tab stands ahead. -/
def atBlank : Reading Bool := do
  let c ← peek 0
  return c == some ' ' || c == some '\t'

/-- The lines of a block from the one ahead on: their text, the end of the last one, the ends of the
empty lines behind it and the mark there. -/
def blockLines (folded : Bool) (depth : Nat) :
    (fuel : Nat) → Reading (List Char × List Char × List Char × Mark)
  | 0 => return ([], [], [], ← mark)
  | fuel + 1 => do
    let blank ← atBlank
    let line ← takeWhile (!isBreak ·)
    let ending := (← lineBreak?).toList
    let (empty, stop) ← emptyLines depth (fuel + 1) (← mark)
    if ← atBlockLine depth then
      let between := betweenLines folded ending empty (blank || (← atBlank))
      let (cs, last) ← blockLines folded depth fuel
      return (line ++ between ++ cs, last)
    else return (line, ending, empty, stop)

/-- The block ahead, inside a block collection at column `indent`. -/
def blockScalar (fuel : Nat) (folded : Bool) (indent : Int) : Reading Token := do
  let start ← mark
  skip 1
  let (chomping, given) ← blockHeader
  skipLineEnd
  let least := (max (indent + 1) 1).toNat
  let first ← mark
  let (depth, empty, stop) ←
    match given with
    | some n => do
      let depth := least + n - 1
      let (empty, stop) ← emptyLines depth fuel first
      pure (depth, empty, stop)
    | none => do
      let (empty, deepest, stop) ← leadingLines fuel 0 first
      pure (max least deepest, empty, stop)
  let (text, ending, trailing, stop) ←
    if ← atBlockLine depth then do
      let (cs, ending, trailing, stop) ← blockLines folded depth fuel
      pure (empty ++ cs, ending, trailing, stop)
    else pure ([], [], empty, stop)
  let tail := match chomping with
    | .strip => []
    | .clip => ending
    | .keep => ending ++ trailing
  return ⟨.scalar ((text ++ tail).map .char) false, start, stop⟩

/-! ## Quotation marks -/

/-- The character of a backslash with one letter. -/
def letterEscape? : Char → Option Char
  | '0' => some '\x00'
  | 'a' => some '\x07'
  | 'b' => some '\x08'
  | 't' => some '\t'
  | '\t' => some '\t'
  | 'n' => some '\n'
  | 'v' => some '\x0b'
  | 'f' => some '\x0c'
  | 'r' => some '\r'
  | 'e' => some '\x1b'
  | ' ' => some ' '
  | '\x22' => some '\x22'
  | '\\' => some '\\'
  | '/' => some '/'
  | 'N' => some '\x85'
  | '_' => some '\xa0'
  | 'L' => some '\u2028'
  | 'P' => some '\u2029'
  | _ => none

/-- The number of digits of an escaped code point. -/
def codeLength? : Char → Option Nat
  | 'x' => some 2
  | 'u' => some 4
  | 'U' => some 8
  | _ => none

/-- Each of the next characters is a hexadecimal digit, or there is a fault. -/
def expectDigits : (count : Nat) → (ahead : Nat) → Reading Unit
  | 0, _ => return ()
  | n + 1, ahead => do
    let c ← peek ahead
    if (c.bind Text.hexValue?).isNone then fail
    expectDigits n (ahead + 1)

/-- The code point of a number; there are bounds that no code point may pass. -/
def codePoint (code : Nat) : Except Fault CodePoint :=
  if 0x80000000 ≤ code then .error (.scalar .codeBeyondWord)
  else if 0x110000 ≤ code then .error (.scalar .codeBeyondUnicode)
  else .ok (.ofNat code)

/-- The ends of the empty lines ahead. A document may not end between quotation marks. -/
def quotedBreaks : (fuel : Nat) → Reading (List Char)
  | 0 => return []
  | fuel + 1 => do
    if ← atDocumentMark then fail
    skipWhile fun c => c == ' ' || c == '\t'
    match ← lineBreak? with
    | none => return []
    | some c => return c :: (← quotedBreaks fuel)

/-- The code points of the escape ahead, the backslash being passed over. -/
def escaped (fuel : Nat) : Reading (List CodePoint) := do
  match ← peek 0 with
  | none => fail
  | some c =>
    match letterEscape? c, codeLength? c with
    | some d, _ =>
      skip 1
      return [.char d]
    | none, some n =>
      skip 1
      expectDigits n 0
      let c ← get
      let point ← codePoint ((Text.hexNumber? (c.rest.take n)).getD 0)
      skip n
      return [point]
    | none, none =>
      if isBreak c then
        let _ ← lineBreak?
        return (← quotedBreaks fuel).map .char
      else fail

/-- A character that ends a run of a quoted text. -/
def endsRun (c : Char) : Bool :=
  c == '\x27' || c == '\x22' || c == '\\' || isGap (some c)

/-- The quoted text up to a blank or to the closing mark. -/
def quotedWord (double : Bool) : (fuel : Nat) → Reading (List CodePoint)
  | 0 => return []
  | fuel + 1 => do
    let run := (← takeWhile (!endsRun ·)).map CodePoint.char
    match ← peek 0 with
    | some '\x27' =>
      if double then
        skip 1
        return run ++ .char '\x27' :: (← quotedWord double fuel)
      else if (← peek 1) == some '\x27' then
        skip 2
        return run ++ .char '\x27' :: (← quotedWord double fuel)
      else return run
    | some '\x22' =>
      if double then return run
      else
        skip 1
        return run ++ .char '\x22' :: (← quotedWord double fuel)
    | some '\\' =>
      skip 1
      if double then
        let ps ← escaped (fuel + 1)
        return run ++ ps ++ (← quotedWord double fuel)
      else return run ++ .char '\\' :: (← quotedWord double fuel)
    | _ => return run

/-- The blanks or the ends of lines ahead, as they count inside a quoted text. -/
def quotedGap (fuel : Nat) : Reading (List Char) := do
  let blanks ← takeWhile fun c => c == ' ' || c == '\t'
  match ← peek 0 with
  | none => fail
  | some c =>
    if isBreak c then
      match ← lineBreak? with
      | some first => return foldedBreaks first (← quotedBreaks fuel)
      | none => return []
    else return blanks

/-- The quoted text up to the closing mark. -/
def quotedText (double : Bool) (quote : Char) : (fuel : Nat) → Reading (List CodePoint)
  | 0 => return []
  | fuel + 1 => do
    let word ← quotedWord double (fuel + 1)
    if (← peek 0) == some quote then return word
    else
      let gap ← quotedGap (fuel + 1)
      return word ++ gap.map .char ++ (← quotedText double quote fuel)

/-- The quoted scalar ahead. -/
def quotedScalar (fuel : Nat) (double : Bool) : Reading Token := do
  let start ← mark
  skip 1
  let text ← quotedText double (if double then '\x22' else '\x27') fuel
  skip 1
  return ⟨.scalar text false, start, ← mark⟩

/-! ## Plain scalars -/

/-- A character that parts the entries of a flow collection. -/
def isFlowMark (c : Char) : Bool := c == ',' || c == '[' || c == ']' || c == '\x7b' || c == '\x7d'

/-- The number of characters that a run of a plain scalar has. A colon ends it if a blank comes
next, and in a flow collection also if one of its marks does. -/
def plainLength (cut flow : Bool) : List Char → Except Fault Nat
  | [] => if cut then .error .unreadable else .ok 0
  | c :: rest =>
    if isGap (some c) || (flow && (isFlowMark c || c == '?')) then .ok 0
    else if c == ':' then
      if cut && rest.isEmpty then .error .unreadable
      else if isGap rest.head? || (flow && rest.head?.any isFlowMark) then .ok 0
      else (plainLength cut flow rest).map (· + 1)
    else (plainLength cut flow rest).map (· + 1)

/-- The run of a plain scalar ahead. -/
def plainRun (flow : Bool) : Reading (List Char) := do
  let c ← get
  take (← plainLength c.cut flow c.rest)

/-- The ends of the empty lines ahead; none if a document starts or ends behind one of them. -/
def plainBreaks : (fuel : Nat) → Reading (Option (List Char))
  | 0 => return some []
  | fuel + 1 => do
    skipSpaces
    match ← lineBreak? with
    | none => return some []
    | some c =>
      if ← atDocumentMark then return none
      else return (← plainBreaks fuel).map (c :: ·)

/-- The spaces or the ends of lines ahead as they count inside a plain scalar, and whether a line
ended. -/
def plainGap (fuel : Nat) : Reading (List Char × Bool) := do
  let spaces ← takeWhile (· == ' ')
  match ← lineBreak? with
  | none => return (spaces, false)
  | some first =>
    if ← atDocumentMark then return ([], true)
    else match ← plainBreaks fuel with
      | none => return ([], true)
      | some others => return (foldedBreaks first others, true)

/-- The runs of a plain scalar that are left, with the gap before the first of them; the mark behind
the last one, and whether a line ended behind it. -/
def plainRuns (flow : Bool) (indent : Int) :
    (fuel : Nat) → (gap : List Char) → (stop : Mark) → (ended : Bool) →
      Reading (List Char × Mark × Bool)
  | 0, _, stop, ended => return ([], stop, ended)
  | fuel + 1, gap, stop, ended => do
    if (← peek 0) == some '#' then return ([], stop, ended)
    match ← plainRun flow with
    | [] => return ([], stop, ended)
    | run =>
      let stop ← mark
      let (next, ended) ← plainGap (fuel + 1)
      let outside : Bool := !flow && (← column) < indent + 1
      if next.isEmpty || (← peek 0) == some '#' || outside then
        return (gap ++ run, stop, ended)
      else
        let (cs, stop, ended) ← plainRuns flow indent fuel next stop ended
        return (gap ++ run ++ cs, stop, ended)

/-- The plain scalar ahead, inside a block collection at column `indent`, and whether a line ended
behind it. -/
def plainScalar (fuel : Nat) (flow : Bool) (indent : Int) : Reading (Token × Bool) := do
  let start ← mark
  let (text, stop, ended) ← plainRuns flow indent fuel [] start false
  return (⟨.scalar (text.map .char) true, start, stop⟩, ended)

end Stratum.Yaml.Reading
