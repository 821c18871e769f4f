import Stratum.Text.Utf16
import Stratum.Text.Utf8

/-!
# The text of a document

The characters of a document as they are read from its bytes, in segments. The first two bytes
choose between UTF-16 of either order and UTF-8. A segment that holds a fault or a character that a
document may not have is lost as a whole: the text is then cut off where that segment starts.
Whoever looks for a character behind the cut meets the fault; whoever stops before it does not.
-/

namespace Stratum.Yaml

/-- The characters that can be read, and whether something unreadable follows them. -/
structure Source where
  chars : List Char
  cut : Bool
  deriving DecidableEq, Repr

namespace Source

/-- A character that a document may have. -/
def isAllowed (c : Char) : Bool :=
  let n := c.toNat
  n == 9 || n == 10 || n == 13 || (0x20 ≤ n && n ≤ 0x7e) || n == 0x85 ||
    (0xa0 ≤ n && n ≤ 0xd7ff) || (0xe000 ≤ n && n ≤ 0xfffd) || 0x10000 ≤ n

/-- How bytes stand for characters. -/
inductive Encoding
  | utf8
  | utf16 (order : Text.Utf16.Order)
  deriving DecidableEq, Repr

/-- The encoding that the first bytes announce. -/
def encodingOf : List UInt8 → Encoding
  | 0xff :: 0xfe :: _ => .utf16 .littleEndian
  | 0xfe :: 0xff :: _ => .utf16 .bigEndian
  | _ => .utf8

/-- The characters of a segment and the unfinished bytes at its end. -/
def decodeSegment (e : Encoding) (bytes : List UInt8) : Option (List Char × List UInt8) :=
  match e with
  | .utf8 =>
    match Text.Utf8.scan 0 none bytes with
    | (cs, .clean) => some (cs, [])
    | (cs, .cut _ seen) => some (cs, seen)
    | (_, .faulty _) => none
  | .utf16 order => Text.Utf16.scan order bytes

/-- The characters of segments, read one after the other; `held` are the bytes that the segments
before them left unfinished. Nothing may be unfinished at the end. -/
def ofSegments (e : Encoding) (held : List UInt8) : List (List UInt8) → Source
  | [] => ⟨[], false⟩
  | [last] =>
    match decodeSegment e (held ++ last) with
    | some (cs, []) => if cs.all isAllowed then ⟨cs, false⟩ else ⟨[], true⟩
    | _ => ⟨[], true⟩
  | segment :: rest =>
    match decodeSegment e (held ++ segment) with
    | some (cs, tail) =>
      if cs.all isAllowed then
        let s := ofSegments e tail rest
        ⟨cs ++ s.chars, s.cut⟩
      else ⟨[], true⟩
    | none => ⟨[], true⟩

/-- The number of bytes that are read at a time. -/
def blockSize : Nat := 4096

/-- Bytes in blocks of the usual size; an empty block ends them. -/
def blocks : (fuel : Nat) → List UInt8 → List (List UInt8)
  | 0, _ => [[]]
  | fuel + 1, bytes =>
    if bytes.isEmpty then [[]] else bytes.take blockSize :: blocks fuel (bytes.drop blockSize)

/-- The segments of a document: one if it fits into a block, else the first two blocks together and
then the other ones. -/
def segments (bytes : List UInt8) : List (List UInt8) :=
  if bytes.length ≤ blockSize then [bytes]
  else bytes.take (2 * blockSize) :: blocks bytes.length (bytes.drop (2 * blockSize))

/-- The text of a document's bytes. -/
def ofBytes (bytes : List UInt8) : Source := ofSegments (encodingOf bytes) [] (segments bytes)

end Source
end Stratum.Yaml
