import Stratum.Calendar.Moment
import Stratum.Number.Numeral

/-!
# Faults of a document

What can be wrong with a YAML text. The faults of the format itself are told apart by the stage that
meets them, and all but the first carry a mark. A scalar whose tag promises a number, a truth value
or a moment may fail to be one; such a fault has words of its own and no mark.
-/

namespace Stratum.Yaml

/-- A place in a text: line and column, both counted from zero. -/
structure Mark where
  line : Nat
  column : Nat
  deriving DecidableEq, Repr

/-- Why a scalar has no value. -/
inductive ScalarFault
  | numeral (fault : Numeral.Fault)
  | moment (fault : MomentFault)
  | emptyNumber
  | notTruth (text : List Text.CodePoint)
  | notTimestamp
  | mappingAsTimestamp
  | placeTooLarge
  | codeBeyondUnicode
  | codeBeyondWord
  deriving DecidableEq, Repr

/-- The words for a fault of a scalar. -/
def ScalarFault.message : ScalarFault → String
  | .numeral fault => fault.message
  | .moment fault => fault.message
  | .emptyNumber => "string index out of range"
  | .notTruth text => Text.quotePoints text
  | .notTimestamp => "'NoneType' object has no attribute 'groupdict'"
  | .mappingAsTimestamp => "expected string or bytes-like object, got 'list'"
  | .placeTooLarge => "int too large to convert to float"
  | .codeBeyondUnicode => "chr() arg not in range(0x110000)"
  | .codeBeyondWord => "Python int too large to convert to C int"

/-- Why a text has no value: bytes that are no text, a token, a sequence of tokens or a reference
that the format does not have, a node without a meaning, or a scalar without a value. -/
inductive Fault
  | unreadable
  | lexical (mark : Mark)
  | grammatical (mark : Mark)
  | referential (mark : Mark)
  | semantic (mark : Mark)
  | scalar (fault : ScalarFault)
  deriving DecidableEq, Repr

/-- The mark of a fault. -/
def Fault.mark? : Fault → Option Mark
  | .lexical m | .grammatical m | .referential m | .semantic m => some m
  | .unreadable | .scalar _ => none

end Stratum.Yaml
