import Stratum.Text.Digit
import Stratum.Text.Utf8
import Stratum.Yaml.Cursor
import Stratum.Yaml.Token

/-!
# Directives, anchors and tags

The tokens that are told by their first character and hold names: directives at the start of a
document, anchors and the references to them, and tags.
-/

namespace Stratum.Yaml.Reading

/-- The name ahead; there has to be one. -/
def name : Reading (List Char) := do
  match ← takeWhile isNameChar with
  | [] => fail
  | cs => return cs

/-- Whether the next character belongs to a class, or the text ends there. -/
def nextIs (mem : Option Char → Bool) : Reading Bool := do return mem (← peek 0)

/-- A fault unless the next character belongs to a class. -/
def expect (mem : Option Char → Bool) : Reading Unit := do
  if !(← nextIs mem) then fail

/-! ## Tags -/

/-- A character that a tag may have as it is, or the sign that announces an escaped byte. -/
def isUriChar (c : Char) : Bool := c.isAlphanum || "-;/?:@&=+$,_.!~*\x27()[]%".toList.contains c

/-- The bytes escaped ahead, each by a percent sign and two digits. -/
def escapedBytes : (fuel : Nat) → Reading (List UInt8)
  | 0 => return []
  | fuel + 1 => do
    if (← peek 0) != some '%' then return []
    skip 1
    let first ← peek 0
    if (first.bind Text.hexValue?).isNone then fail
    let second ← peek 1
    if (second.bind Text.hexValue?).isNone then fail
    let digits ← take 2
    let bytes ← escapedBytes fuel
    return ((Text.hexNumber? digits).getD 0).toUInt8 :: bytes

/-- The characters of a tag ahead. Escaped bytes that stand together have to be a text. -/
def uriChars : (fuel : Nat) → Reading (List Char)
  | 0 => return []
  | fuel + 1 => do
    let plain ← takeWhile fun c => isUriChar c && c != '%'
    if (← peek 0) == some '%' then
      let start ← mark
      match Text.Utf8.decode (← escapedBytes (fuel + 1)) with
      | .error _ => throw (.lexical start)
      | .ok cs => return plain ++ cs ++ (← uriChars fuel)
    else return plain

/-- The rest of a tag, which may not be empty. -/
def uri : Reading (List Char) := do
  let c ← get
  match ← uriChars (c.rest.length + 1) with
  | [] => fail
  | cs => return cs

/-- A handle: an exclamation mark alone before a space, or two of them around a name. -/
def handle : Reading (List Char) := do
  expect (· == some '!')
  if (← peek 1) == some ' ' then take 1
  else
    let c ← get
    let size := (c.rest.drop 1).takeWhile isNameChar |>.length
    if (← peek (size + 1)) == some '!' then take (size + 2)
    else
      skip (size + 1)
      fail

/-- The tag ahead: a whole one in angle brackets, an exclamation mark alone, or a suffix that may
have a handle before it. -/
def tag : Reading Token := do
  let start ← mark
  let next ← peek 1
  let kind ←
    if next == some '<' then do
      skip 2
      let suffix ← uri
      expect (· == some '>')
      skip 1
      pure (TokenKind.tag none suffix)
    else if isGap next then do
      skip 1
      pure (TokenKind.tag none ['!'])
    else do
      let c ← get
      let word := (c.rest.drop 1).takeWhile fun ch => !endsWord (some ch)
      if word.contains '!' then
        let h ← handle
        pure (TokenKind.tag (some h) (← uri))
      else
        let _ ← peek (word.length + 1)
        skip 1
        pure (TokenKind.tag (some ['!']) (← uri))
  expect endsWord
  return ⟨kind, start, ← mark⟩

/-! ## Anchors -/

/-- A character, or the end of the text, that may come after the name of an anchor. -/
def endsName (c : Option Char) : Bool := isGap c || c.any ("?:,]\x7d%@\x60".toList.contains ·)

/-- The anchor or the reference ahead, as told by `kind`. -/
def named (kind : List Char → TokenKind) : Reading Token := do
  let start ← mark
  skip 1
  let cs ← name
  expect endsName
  return ⟨kind cs, start, ← mark⟩

/-! ## Directives -/

/-- A number in a version; there has to be a digit. -/
def versionPart : Reading Nat := do
  match ← takeWhile Char.isDigit with
  | [] => fail
  | cs =>
    match Numeral.readInt 10 (cs.map .char) with
    | .ok n => return n.toNat
    | .error fault => throw (.scalar (.numeral fault))

/-- The numbers of a version. -/
def version : Reading Directive := do
  skipSpaces
  let major ← versionPart
  expect (· == some '.')
  skip 1
  let minor ← versionPart
  expect endsWord
  return .version major minor

/-- A handle and the stem that it stands for. -/
def handleDefinition : Reading Directive := do
  skipSpaces
  let h ← handle
  expect (· == some ' ')
  skipSpaces
  let stem ← uri
  expect endsWord
  return .handle h stem

/-- The directive ahead, with its line. -/
def directive : Reading Token := do
  let start ← mark
  skip 1
  let cs ← name
  expect endsWord
  let d ←
    if cs = ['Y', 'A', 'M', 'L'] then version
    else if cs = ['T', 'A', 'G'] then handleDefinition
    else do
      skipWhile (!isBreak ·)
      pure Directive.other
  let stop ← mark
  skipLineEnd
  return ⟨.directive d, start, stop⟩

end Stratum.Yaml.Reading
