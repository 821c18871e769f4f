/-!
# Patterns

Regular patterns over characters, matched against a whole text by taking, for each character, what
the pattern still asks for after it.
-/

namespace Stratum.Text

/-- A set of texts given by choice, sequence and repetition over classes of characters. -/
inductive Pattern
  | never
  | nothing
  | one (mem : Char → Bool)
  | seq (a b : Pattern)
  | either (a b : Pattern)
  | many (a : Pattern)

namespace Pattern

/-- Whether the pattern holds the empty text. -/
def acceptsEmpty : Pattern → Bool
  | never => false
  | nothing => true
  | one _ => false
  | seq a b => a.acceptsEmpty && b.acceptsEmpty
  | either a b => a.acceptsEmpty || b.acceptsEmpty
  | many _ => true

/-- Sequence, with the impossible and the empty part taken out. -/
def followedBy : Pattern → Pattern → Pattern
  | never, _ => never
  | nothing, b => b
  | a, b => seq a b

/-- Choice, with the impossible part taken out. -/
def orElse : Pattern → Pattern → Pattern
  | never, b => b
  | a, never => a
  | a, b => either a b

/-- What remains to be matched after the character. -/
def after (c : Char) : Pattern → Pattern
  | never => never
  | nothing => never
  | one mem => if mem c then nothing else never
  | seq a b =>
    if a.acceptsEmpty then orElse (followedBy (after c a) b) (after c b)
    else followedBy (after c a) b
  | either a b => orElse (after c a) (after c b)
  | many a => followedBy (after c a) (many a)

/-- Whether the pattern holds the text. -/
def accepts (p : Pattern) : List Char → Bool
  | [] => p.acceptsEmpty
  | c :: rest => (after c p).accepts rest

/-! ## Building patterns -/

/-- One character out of those of a text. -/
def among (s : String) : Pattern := one fun c => s.toList.contains c

/-- One character of a range. -/
def between (low high : Char) : Pattern := one fun c => low ≤ c && c ≤ high

/-- Exactly this text. -/
def exactly (s : String) : Pattern := s.toList.foldr (fun c p => seq (one (· == c)) p) nothing

/-- The pattern, or nothing. -/
def optionally (p : Pattern) : Pattern := either p nothing

/-- The pattern, once or more. -/
def oneOrMore (p : Pattern) : Pattern := seq p (many p)

/-- All of the patterns, one after the other. -/
def inOrder (ps : List Pattern) : Pattern := ps.foldr seq nothing

/-- Any one of the patterns. -/
def anyOf (ps : List Pattern) : Pattern := ps.foldr either never

/-- Any one of the texts. -/
def anyText (ss : List String) : Pattern := anyOf (ss.map exactly)

/-- A digit of ASCII. -/
def digit : Pattern := between '0' '9'

end Pattern
end Stratum.Text
