import Stratum.Yaml.Fault

/-!
# Tokens

The tokens of a YAML text. Indentation has tokens of its own: a block sequence or mapping opens
where its first entry stands further in than what is around it, and closes where a line stands
further out.
-/

namespace Stratum.Yaml

/-- What a directive says. -/
inductive Directive
  | version (major minor : Nat)
  | handle (name : List Char) (stem : List Char)
  | other
  deriving DecidableEq, Repr

/-- The kinds of tokens. -/
inductive TokenKind
  | streamEnd
  | directive (d : Directive)
  | documentStart
  | documentEnd
  | blockSequenceStart
  | blockMappingStart
  | blockEnd
  | flowSequenceStart
  | flowSequenceEnd
  | flowMappingStart
  | flowMappingEnd
  | flowEntry
  | blockEntry
  | key
  | value
  | reference (name : List Char)
  | anchor (name : List Char)
  | tag (handle : Option (List Char)) (suffix : List Char)
  | scalar (text : List Text.CodePoint) (plain : Bool)
  deriving DecidableEq, Repr

/-- A token with the marks of its first character and of the one behind it. -/
structure Token where
  kind : TokenKind
  start : Mark
  stop : Mark
  deriving DecidableEq, Repr

end Stratum.Yaml
