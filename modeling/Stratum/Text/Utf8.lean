import Stratum.Text.Printable

/-!
# UTF-8

Decoding of bytes into characters, one byte at a time. The decoder keeps what an unfinished
character still owes: how many bytes, and the range of the next one, which is what rules out
overlong forms, surrogates and code points beyond the last. A fault tells where the offending
character starts, which of its bytes were read, and why they cannot go on.
-/

namespace Stratum.Text.Utf8

/-- The bytes of one character. -/
def encodeChar (c : Char) : List UInt8 :=
  let n := c.toNat
  if n < 0x80 then [n.toUInt8]
  else if n < 0x800 then [(0xc0 + n / 0x40).toUInt8, (0x80 + n % 0x40).toUInt8]
  else if n < 0x10000 then
    [(0xe0 + n / 0x1000).toUInt8, (0x80 + n / 0x40 % 0x40).toUInt8, (0x80 + n % 0x40).toUInt8]
  else
    [(0xf0 + n / 0x40000).toUInt8, (0x80 + n / 0x1000 % 0x40).toUInt8,
      (0x80 + n / 0x40 % 0x40).toUInt8, (0x80 + n % 0x40).toUInt8]

/-- The bytes of a text. -/
def encode (cs : List Char) : List UInt8 := cs.flatMap encodeChar

/-- Why bytes are not a character. -/
inductive Reason
  | invalidStart
  | invalidContinuation
  | unexpectedEnd
  deriving DecidableEq, Repr

/-- The bytes that cannot be decoded, by the place of the first of them. -/
structure Fault where
  start : Nat
  bytes : List UInt8
  reason : Reason
  deriving DecidableEq, Repr

/-- The words for a reason. -/
def Reason.message : Reason → String
  | .invalidStart => "invalid start byte"
  | .invalidContinuation => "invalid continuation byte"
  | .unexpectedEnd => "unexpected end of data"

/-- The text of a fault names one byte by its value and several by their places. -/
def Fault.message (f : Fault) : String :=
  let place := match f.bytes with
    | [b] => "byte 0x" ++ String.ofList (hexDigits 2 b.toNat) ++ " in position " ++ toString f.start
    | _ => "bytes in position " ++ toString f.start ++ "-" ++
        toString (f.start + f.bytes.length - 1)
  "'utf-8' codec can't decode " ++ place ++ ": " ++ f.reason.message

/-- A character of which `seen` bytes are read: its code point so far, the number of bytes it still
owes, and the range of the next one. -/
structure Pending where
  seen : List UInt8
  code : Nat
  owed : Nat
  low : Nat
  high : Nat
  deriving DecidableEq, Repr

/-- What a first byte opens; `none` for a byte that starts no character of several bytes. -/
def Pending.ofLead? (b : UInt8) : Option Pending :=
  let n := b.toNat
  if 0xc2 ≤ n ∧ n ≤ 0xdf then some ⟨[b], n - 0xc0, 1, 0x80, 0xbf⟩
  else if n = 0xe0 then some ⟨[b], 0, 2, 0xa0, 0xbf⟩
  else if n = 0xed then some ⟨[b], 0xd, 2, 0x80, 0x9f⟩
  else if 0xe1 ≤ n ∧ n ≤ 0xef then some ⟨[b], n - 0xe0, 2, 0x80, 0xbf⟩
  else if n = 0xf0 then some ⟨[b], 0, 3, 0x90, 0xbf⟩
  else if 0xf1 ≤ n ∧ n ≤ 0xf3 then some ⟨[b], n - 0xf0, 3, 0x80, 0xbf⟩
  else if n = 0xf4 then some ⟨[b], 4, 3, 0x80, 0x8f⟩
  else none

/-- How a run of the decoder ends: after a whole character, inside one, or at a fault. -/
inductive Ending
  | clean
  | cut (start : Nat) (seen : List UInt8)
  | faulty (fault : Fault)
  deriving DecidableEq, Repr

/-- The characters of the bytes from offset `at_` on, as far as they go, and how they end. -/
def scan (at_ : Nat) : Option Pending → List UInt8 → List Char × Ending
  | none, [] => ([], .clean)
  | some p, [] => ([], .cut (at_ - p.seen.length) p.seen)
  | none, b :: rest =>
    if b.toNat < 0x80 then
      let (cs, e) := scan (at_ + 1) none rest
      (Char.ofNat b.toNat :: cs, e)
    else match Pending.ofLead? b with
      | some p => scan (at_ + 1) (some p) rest
      | none => ([], .faulty ⟨at_, [b], .invalidStart⟩)
  | some p, b :: rest =>
    if p.low ≤ b.toNat ∧ b.toNat ≤ p.high then
      let code := p.code * 0x40 + (b.toNat - 0x80)
      if p.owed ≤ 1 then
        let (cs, e) := scan (at_ + 1) none rest
        (Char.ofNat code :: cs, e)
      else scan (at_ + 1) (some ⟨p.seen ++ [b], code, p.owed - 1, 0x80, 0xbf⟩) rest
    else ([], .faulty ⟨at_ - p.seen.length, p.seen, .invalidContinuation⟩)

/-- The text that the bytes spell, or the first fault in them; bytes that stop inside a character
are at fault. -/
def decode (bytes : List UInt8) : Except Fault (List Char) :=
  match scan 0 none bytes with
  | (cs, .clean) => .ok cs
  | (_, .cut start seen) => .error ⟨start, seen, .unexpectedEnd⟩
  | (_, .faulty f) => .error f

end Stratum.Text.Utf8
