/-!
# UTF-16

Decoding of bytes, two to a unit, into characters. A high surrogate and the low one after it are one
character; a surrogate that stands alone is a fault. As with bytes, a run may end inside a
character.
-/

namespace Stratum.Text.Utf16

/-- Which byte of a unit comes first. -/
inductive Order
  | littleEndian
  | bigEndian
  deriving DecidableEq, Repr

/-- The unit of two bytes in the order they stand. -/
def unit : Order → UInt8 → UInt8 → Nat
  | .littleEndian, a, b => a.toNat + 0x100 * b.toNat
  | .bigEndian, a, b => 0x100 * a.toNat + b.toNat

/-- The characters of the bytes and the unfinished bytes after them; `none` if a surrogate stands
alone. -/
def scan (order : Order) : List UInt8 → Option (List Char × List UInt8)
  | a :: b :: rest =>
    let u := unit order a b
    if u < 0xd800 ∨ 0xe000 ≤ u then
      (scan order rest).map fun (cs, tail) => (Char.ofNat u :: cs, tail)
    else if 0xdc00 ≤ u then none
    else match rest with
      | c :: d :: rest' =>
        let v := unit order c d
        if 0xdc00 ≤ v ∧ v < 0xe000 then
          (scan order rest').map fun (cs, tail) =>
            (Char.ofNat (0x10000 + (u - 0xd800) * 0x400 + (v - 0xdc00)) :: cs, tail)
        else none
      | _ => some ([], a :: b :: rest)
  | tail => some ([], tail)

end Stratum.Text.Utf16
