import Stratum.Text.CodePoint
import Stratum.Text.Pattern

/-!
# Tags

What kind of value a node is. A node may carry a tag of its own; a plain scalar without one gets its
tag from its text, by the first pattern that holds it. Patterns are tried only for the first
characters they can start with, and the end of a line at the end of the text is overlooked.
-/

namespace Stratum.Yaml

/-- The tags that have a meaning. -/
inductive CoreTag
  | null
  | bool
  | int
  | float
  | binary
  | timestamp
  | omap
  | pairs
  | set
  | str
  | seq
  | map
  | merge
  | value
  deriving DecidableEq, Repr

/-- A tag: one with a meaning, or any other one. -/
inductive Tag
  | core (tag : CoreTag)
  | other (name : List Char)
  deriving DecidableEq, Repr

namespace Tag

/-- What the names of all tags with a meaning start with. -/
def coreStem : List Char := "tag:yaml.org,2002:".toList

/-- The last parts of the names of the tags with a meaning. -/
def coreNames : List (String × CoreTag) := [
  ("null", .null), ("bool", .bool), ("int", .int), ("float", .float), ("binary", .binary),
  ("timestamp", .timestamp), ("omap", .omap), ("pairs", .pairs), ("set", .set), ("str", .str),
  ("seq", .seq), ("map", .map), ("merge", .merge), ("value", .value)]

/-- The tag of a name. -/
def ofName (name : List Char) : Tag :=
  match coreNames.find? fun (n, _) => coreStem ++ n.toList == name with
  | some (_, tag) => core tag
  | none => other name

/-! ## Patterns of plain scalars -/

open Text.Pattern

/-- The words for truth values. -/
def boolPattern : Text.Pattern := anyText [
  "yes", "Yes", "YES", "no", "No", "NO", "true", "True", "TRUE", "false", "False", "FALSE", "on",
  "On", "ON", "off", "Off", "OFF"]

/-- A sign, or none. -/
def signPattern : Text.Pattern := optionally (among "+-")

/-- A digit, then digits and underscores. -/
def digitsPattern : Text.Pattern := inOrder [digit, many (among "0123456789_")]

/-- An exponent with its sign, or none. -/
def exponentPattern : Text.Pattern :=
  optionally (inOrder [among "eE", among "+-", oneOrMore digit])

/-- The places below the first one in numbers to the base sixty. -/
def sixtiethsPattern : Text.Pattern :=
  oneOrMore (inOrder [exactly ":", optionally (between '0' '5'), digit])

/-- Numbers with a point, and the words for infinity and for what is not a number. -/
def floatPattern : Text.Pattern := anyOf [
  inOrder [signPattern, digitsPattern, exactly ".", many (among "0123456789_"), exponentPattern],
  inOrder [exactly ".", digitsPattern, exponentPattern],
  inOrder [signPattern, digitsPattern, sixtiethsPattern, exactly ".", many (among "0123456789_")],
  inOrder [signPattern, exactly ".", anyText ["inf", "Inf", "INF"]],
  inOrder [exactly ".", anyText ["nan", "NaN", "NAN"]]]

/-- A digit but zero, then digits and underscores. -/
def positivePattern : Text.Pattern := inOrder [between '1' '9', many (among "0123456789_")]

/-- Whole numbers to the bases two, eight, ten, sixteen and sixty. -/
def intPattern : Text.Pattern := inOrder [signPattern, anyOf [
  inOrder [exactly "0b", oneOrMore (among "01_")],
  inOrder [exactly "0", oneOrMore (among "01234567_")],
  exactly "0",
  positivePattern,
  inOrder [exactly "0x", oneOrMore (among "0123456789abcdefABCDEF_")],
  inOrder [positivePattern, sixtiethsPattern]]]

/-- One digit or two. -/
def shortPattern : Text.Pattern := inOrder [digit, optionally digit]

/-- Two digits. -/
def pairPattern : Text.Pattern := inOrder [digit, digit]

/-- A date, or a date with a time and perhaps an offset. -/
def timestampPattern : Text.Pattern := anyOf [
  inOrder [pairPattern, pairPattern, exactly "-", pairPattern, exactly "-", pairPattern],
  inOrder [
    pairPattern, pairPattern, exactly "-", shortPattern, exactly "-", shortPattern,
    either (among "Tt") (oneOrMore (among " \t")), shortPattern, exactly ":", pairPattern,
    exactly ":", pairPattern, optionally (inOrder [exactly ".", many digit]),
    optionally (inOrder [
      many (among " \t"),
      either (exactly "Z")
        (inOrder [among "+-", shortPattern, optionally (inOrder [exactly ":", pairPattern])])])]]

/-- A pattern with the characters that its texts start with and the tag that it gives. -/
structure Rule where
  starts : String
  pattern : Text.Pattern
  tag : Tag

/-- The rules for plain scalars in the order in which they are tried. -/
def rules : List Rule := [
  ⟨"yYnNtTfFoO", boolPattern, core .bool⟩,
  ⟨"-+0123456789.", floatPattern, core .float⟩,
  ⟨"-+0123456789", intPattern, core .int⟩,
  ⟨"<", exactly "<<", core .merge⟩,
  ⟨"~nN", anyText ["~", "null", "Null", "NULL"], core .null⟩,
  ⟨"0123456789", timestampPattern, core .timestamp⟩,
  ⟨"=", exactly "=", core .value⟩,
  ⟨"!&*", among "!&*", other (coreStem ++ "yaml".toList)⟩]

/-- A text without the end of a line at its end. -/
def dropLineFeed (cs : List Char) : List Char :=
  if cs.getLast? = some '\n' then cs.dropLast else cs

/-- The tag that the text of a plain scalar gives it. -/
def ofPlain (cs : List Char) : Tag :=
  match cs with
  | [] => core .null
  | c :: _ =>
    let body := dropLineFeed cs
    match rules.find? fun r => r.starts.toList.contains c && r.pattern.accepts body with
    | some r => r.tag
    | none => core .str

/-- The tag that a text of code points gives; no pattern has a surrogate. -/
def ofText (ps : List Text.CodePoint) : Tag :=
  match Text.CodePoint.chars? ps with
  | some cs => ofPlain cs
  | none => core .str

end Tag
end Stratum.Yaml
