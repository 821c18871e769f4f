import Stratum.Number.Binary64

/-!
# Shortest decimal text

The text of a double has the fewest digits that read back as that double, and of two such the nearer
ones. Around a finite double lies the interval of the numbers that round to it, its ends included if
`m` is even. For one digit, then two, and so on, the two neighbours of the double on that decimal
grid are tried; the first grid that has one of them in the interval gives the digits.
-/

namespace Stratum.Binary64

/-- The interval of numbers that round to `m * 2 ^ e`, in units of `2 ^ (e - 2)`. -/
structure Interval where
  low : Nat
  mid : Nat
  high : Nat
  closed : Bool
  unit : Int

/-- The interval around a positive finite double. Just below a power of two the doubles lie twice as
close. -/
def Interval.around (m : Nat) (e : Int) : Interval :=
  let gap := if m = hidden ∧ -1074 < e then 1 else 2
  ⟨4 * m - gap, 4 * m, 4 * m + 2, m % 2 == 0, e - 2⟩

/-- `d * 10 ^ k` and `n * 2 ^ u` over one denominator. -/
def common (d : Nat) (k : Int) (n : Nat) (u : Int) : Nat × Nat :=
  ((d * Nat.pow 10 k.toNat) <<< (-u).toNat, (n * Nat.pow 10 (-k).toNat) <<< u.toNat)

/-- Whether `d * 10 ^ k` lies in the interval. -/
def Interval.holds (i : Interval) (d : Nat) (k : Int) : Bool :=
  let (x, low) := common d k i.low i.unit
  let (y, high) := common d k i.high i.unit
  if i.closed then low ≤ x && y ≤ high else low < x && y < high

/-- The largest `d` with `d * 10 ^ k` at or below the middle. -/
def Interval.floor (i : Interval) (k : Int) : Nat :=
  let (one, mid) := common 1 k i.mid i.unit
  mid / one

/-- The neighbour on the grid of `10 ^ k` that reads back; the nearer one if both do, the even one
of two equally near. -/
def Interval.onGrid? (i : Interval) (k : Int) : Option Nat :=
  let d := i.floor k
  match i.holds d k, i.holds (d + 1) k with
  | true, true =>
    let (below, mid) := common d k i.mid i.unit
    let (above, _) := common (d + 1) k i.mid i.unit
    if mid - below < above - mid then some d
    else if above - mid < mid - below then some (d + 1)
    else some (d + d % 2)
  | true, false => some d
  | false, true => some (d + 1)
  | false, false => none

/-- The first grid with a hit, from the coarse one down; digits and exponent of the last digit. -/
def Interval.search (i : Interval) (k : Int) : (tries : Nat) → Nat × Int
  | 0 => (i.floor k, k)
  | tries + 1 =>
    match i.onGrid? k with
    | some d => (d, k)
    | none => i.search (k - 1) tries

/-- An exponent of ten at or above that of the leading digit, by at most two. -/
def decimalTop (m : Nat) (e : Int) : Int := ((m.log2 : Int) + 1 + e) * 30103 / 100000 + 1

/-- The shortest digits of `m * 2 ^ e` and the exponent of the last one. -/
def shortest (m : Nat) (e : Int) : Nat × Int :=
  (Interval.around m e).search (decimalTop m e) 21

/-- Digits without the zeros at their end, and the exponent of the last digit left. -/
def dropZeros (digits : Nat) (k : Int) : (fuel : Nat) → Nat × Int
  | 0 => (digits, k)
  | fuel + 1 =>
    if digits % 10 = 0 ∧ digits ≠ 0 then dropZeros (digits / 10) (k + 1) fuel else (digits, k)

/-- How a double is written: where positional notation starts and ends, counted in the place of the
decimal point behind the first digit, and the least number of digits in an exponent. -/
structure Layout where
  firstPlace : Int
  lastPlace : Int
  exponentDigits : Nat

/-- Positional from `0.0001` up to below `10 ^ 16`, and two digits at least in an exponent. -/
def plainLayout : Layout := ⟨-3, 16, 2⟩

/-- Digits of which `place` stand before the point. -/
def Layout.write (f : Layout) (digits : List Char) (place : Int) : List Char :=
  let count : Int := digits.length
  if f.firstPlace ≤ place ∧ place ≤ f.lastPlace then
    if place ≤ 0 then '0' :: '.' :: List.replicate (-place).toNat '0' ++ digits
    else if count ≤ place then digits ++ List.replicate (place - count).toNat '0' ++ ['.', '0']
    else digits.take place.toNat ++ '.' :: digits.drop place.toNat
  else
    let exponent := place - 1
    let size := (Nat.toDigits 10 exponent.natAbs)
    let padded := List.replicate (f.exponentDigits - size.length) '0' ++ size
    let fraction := digits.drop 1
    digits.take 1 ++ (if fraction = [] then [] else '.' :: fraction) ++
      'e' :: (if exponent < 0 then '-' else '+') :: padded

/-- The text of a double. -/
def text (x : Binary64) : String :=
  match x.reading with
  | .notANumber _ => "nan"
  | .infinite negative => if negative then "-inf" else "inf"
  | .finite negative m e =>
    let body :=
      if m = 0 then ['0', '.', '0']
      else
        let (d, k) := shortest m e
        let (d, k) := dropZeros d k 20
        let digits := Nat.toDigits 10 d
        plainLayout.write digits ((digits.length : Int) + k)
    String.ofList (if negative then '-' :: body else body)

end Stratum.Binary64
