/-!
# Double-precision numbers

A double is its sixty-four bits: a sign, eleven bits of exponent, fifty-two of fraction. A finite
one is `m * 2 ^ e` with a natural `m` and an integer `e`, and everything here is exact arithmetic on
those. Rounding goes to the nearest double, and of two equally near to the one with an even `m`.
-/

namespace Stratum

/-- A double by its bits. -/
structure Binary64 where
  bits : UInt64
  deriving DecidableEq, Repr

namespace Binary64

/-- What a double stands for. A value that is not a number carries its fraction as a mark, and is
the same as another one only if the marks agree. -/
inductive Reading
  | finite (negative : Bool) (m : Nat) (e : Int)
  | infinite (negative : Bool)
  | notANumber (mark : Nat)
  deriving DecidableEq, Repr

/-- The leading bit of a fraction, which the bits of a normal double leave out. -/
def hidden : Nat := 0x10000000000000

/-- The reading of the bits. -/
def reading (x : Binary64) : Reading :=
  let n := x.bits.toNat
  let negative := n >>> 63 == 1
  let exponent : Nat := (n >>> 52) % 0x800
  let fraction : Nat := n % hidden
  if exponent = 0x7ff then
    if fraction = 0 then .infinite negative else .notANumber fraction
  else if exponent = 0 then .finite negative fraction (-1074)
  else .finite negative (hidden + fraction) (Int.ofNat exponent - 1075)

/-- The double with this sign and these bits below it. -/
def ofSign (negative : Bool) (magnitude : Nat) : Binary64 :=
  ⟨(if negative then 1 <<< 63 + magnitude else magnitude).toUInt64⟩

/-- Infinity of either sign. -/
def infinity (negative : Bool) : Binary64 := ofSign negative (0x7ff <<< 52)

/-- The value that is not a number and carries this mark. -/
def nan (mark : Nat) : Binary64 := ofSign false (0x7ff <<< 52 + 1 <<< 51 + mark % 1 <<< 51)

/-- The double with another mark if it is not a number. -/
def withMark (mark : Nat) (x : Binary64) : Binary64 :=
  match x.reading with
  | .notANumber _ => nan mark
  | _ => x

/-- Zero of either sign. -/
def zero (negative : Bool) : Binary64 := ofSign negative 0

/-- The quotient rounded to the nearest natural number, a half going to the even neighbour. -/
def roundDiv (num den : Nat) : Nat :=
  let q := num / den
  let r := num % den
  if 2 * r < den then q
  else if den < 2 * r then q + 1
  else q + q % 2

/-- The double nearest to `num / den`, with the given sign. -/
def ofRatio (negative : Bool) (num den : Nat) : Binary64 :=
  if num = 0 then zero negative
  else
    -- below `2 ^ 54` and not below `2 ^ 52` in units of `2 ^ coarse`
    let coarse : Int := (num.log2 : Int) - den.log2 - 53
    let scaled (e : Int) : Nat × Nat :=
      if 0 ≤ e then (num, den <<< e.toNat) else (num <<< (-e).toNat, den)
    let (cn, cd) := scaled coarse
    let fine : Int := if cn / cd < 2 * hidden then coarse else coarse + 1
    let e : Int := max fine (-1074)
    let (n, d) := scaled e
    let magnitude := (e + 1074).toNat <<< 52 + roundDiv n d
    if 0x7ff <<< 52 ≤ magnitude then infinity negative else ofSign negative magnitude

/-- The double nearest to `digits * 10 ^ exponent`, with the given sign. -/
def ofDecimal (negative : Bool) (digits : Nat) (exponent : Int) : Binary64 :=
  let size : Int := (digits.log2 : Int) * 30103 / 100000 + exponent
  if digits = 0 then zero negative
  else if 400 < size then infinity negative
  else if size < -400 then zero negative
  else if 0 ≤ exponent then ofRatio negative (digits * Nat.pow 10 exponent.toNat) 1
  else ofRatio negative digits (Nat.pow 10 (-exponent).toNat)

/-- The double nearest to an integer; `none` if it lies beyond all of them. -/
def ofInt? (n : Int) : Option Binary64 :=
  let x := ofRatio (n < 0) n.natAbs 1
  if x = infinity (n < 0) then none else some x

/-- The double with the other sign. -/
def neg (x : Binary64) : Binary64 := ⟨x.bits ^^^ 0x8000000000000000⟩

/-- The signed value `n * 2 ^ e` as a double; a sum that cancels is plain zero. -/
def ofScaled (n : Int) (e : Int) : Binary64 :=
  if 0 ≤ e then ofRatio (n < 0) (n.natAbs <<< e.toNat) 1
  else ofRatio (n < 0) n.natAbs (1 <<< (-e).toNat)

/-- A magnitude with its sign. -/
def signed (negative : Bool) (m : Nat) : Int := if negative then -m else m

/-- The sum, rounded. -/
def add (x y : Binary64) : Binary64 :=
  match x.reading, y.reading with
  | .notANumber k, _ => nan k
  | _, .notANumber k => nan k
  | .infinite a, .infinite b => if a = b then infinity a else nan 0
  | .infinite a, .finite .. => infinity a
  | .finite .., .infinite b => infinity b
  | .finite a m e, .finite b n f =>
    if m = 0 ∧ n = 0 then zero (a && b)
    else
      let g := min e f
      ofScaled (signed a (m <<< (e - g).toNat) + signed b (n <<< (f - g).toNat)) g

/-- The product, rounded. -/
def mul (x y : Binary64) : Binary64 :=
  match x.reading, y.reading with
  | .notANumber k, _ => nan k
  | _, .notANumber k => nan k
  | .infinite a, .infinite b => infinity (a != b)
  | .infinite a, .finite b n _ => if n = 0 then nan 0 else infinity (a != b)
  | .finite a m _, .infinite b => if m = 0 then nan 0 else infinity (a != b)
  | .finite a m e, .finite b n f =>
    let k := e + f
    if 0 ≤ k then ofRatio (a != b) ((m * n) <<< k.toNat) 1
    else ofRatio (a != b) (m * n) (1 <<< (-k).toNat)

end Binary64
end Stratum
