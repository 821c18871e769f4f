/-!
# Base 64

Decoding of base 64. Characters outside the alphabet are passed over. A padding sign that completes
a group ends the text, and a text that stops inside a group is at fault.
-/

namespace Stratum.Text.Base64

/-- The value of a character of the alphabet. -/
def sextet? (c : Char) : Option Nat :=
  if 'A' ≤ c ∧ c ≤ 'Z' then some (c.toNat - 'A'.toNat)
  else if 'a' ≤ c ∧ c ≤ 'z' then some (c.toNat - 'a'.toNat + 26)
  else if '0' ≤ c ∧ c ≤ '9' then some (c.toNat - '0'.toNat + 52)
  else if c = '+' then some 62
  else if c = '/' then some 63
  else none

/-- The bytes of a text from the middle of a group on, of which `seen` characters were read; `carry`
holds the bits that have not made a byte yet, and `pads` padding signs come before the text. -/
def decodeIn (seen carry pads : Nat) : List Char → Option (List UInt8)
  | [] => if seen = 0 then some [] else none
  | c :: rest =>
    if c = '=' then
      if seen < 2 then decodeIn seen carry pads rest
      else if 4 ≤ seen + pads + 1 then some []
      else decodeIn seen carry (pads + 1) rest
    else match sextet? c with
      | none => decodeIn seen carry pads rest
      | some v =>
        if seen = 0 then decodeIn 1 v 0 rest
        else if seen = 1 then
          (decodeIn 2 (v % 16) 0 rest).map ((carry * 4 + v / 16).toUInt8 :: ·)
        else if seen = 2 then
          (decodeIn 3 (v % 4) 0 rest).map ((carry * 16 + v / 4).toUInt8 :: ·)
        else (decodeIn 0 0 0 rest).map ((carry * 64 + v).toUInt8 :: ·)

/-- The bytes that a text of ASCII stands for; none if it is at fault. -/
def decode? (cs : List Char) : Option (List UInt8) :=
  if cs.all (·.toNat < 128) then decodeIn 0 0 0 cs else none

end Stratum.Text.Base64
