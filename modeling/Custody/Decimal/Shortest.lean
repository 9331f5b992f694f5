/-
# The shortest decimal that reads back

A number is written with the fewest significant digits that still read back as that number, and of
those with the ones nearest to it; between two equally near the larger is taken.  The digits that
read back fill an interval around the number: half way to its two neighbours, the ends included
when the mantissa is even.  If any decimal with a given number of digits lies in that interval,
then one of the two next to the number does, so only those two are tried, with one digit, two
digits and so on.  The point is always written out; there is no exponent, and a whole number has
no fraction.
-/

import Custody.Decimal.Binary64

namespace Custody.Decimal

/-- The decimals that read back as one number: everything between the two ends, all over one
denominator. -/
structure Reading where
  low : Nat
  value : Nat
  high : Nat
  denominator : Nat
  /-- Whether the ends themselves read back. -/
  closed : Bool

/-- The interval of a number.  Below a power of two the neighbours are twice as close. -/
def reading (number : Binary64) : Reading :=
  let scale := twoToThe number.exponent.toNat
  let nearer := if number.mantissa = mantissaBound / 2 then 1 else 2
  { low := (4 * number.mantissa - nearer) * scale
    value := 4 * number.mantissa * scale
    high := (4 * number.mantissa + 2) * scale
    denominator := 4 * number.denominator
    closed := number.mantissa % 2 = 0 }

/-- Whether `digits * numerator / denominator`, the place value of the last digit being the
fraction, reads back. -/
def Reading.holds (interval : Reading) (digits unitTop unitBottom : Nat) : Bool :=
  let candidate := digits * unitTop * interval.denominator
  let low := interval.low * unitBottom
  let high := interval.high * unitBottom
  if interval.closed then low ≤ candidate && candidate ≤ high
  else low < candidate && candidate < high

/-- How many zeros stand between the point and the first digit of a number below one. -/
def zerosAfterPoint : Nat → Nat → Nat → Nat
  | 0, _, _ => 0
  | fuel + 1, top, bottom =>
      if bottom ≤ top * 10 then 0 else 1 + zerosAfterPoint fuel (top * 10) bottom

/-- The place of the point: the number of digits before it, or, negated, of zeros after it. -/
def pointPlace (interval : Reading) : Int :=
  if interval.denominator ≤ interval.value then
    ((Nat.toDigits 10 (interval.value / interval.denominator)).length : Int)
  else
    -(zerosAfterPoint (Nat.toDigits 10 interval.denominator).length interval.value
      interval.denominator : Int)

/-- The digits with a given count that read back, the nearer of two, the larger of two equally
near. -/
def digitsWith (interval : Reading) (place : Int) (count : Nat) : Option Nat :=
  let last : Int := place - count
  let unitTop := tenToThe last.toNat
  let unitBottom := tenToThe (-last).toNat
  let top := interval.value * unitBottom
  let bottom := interval.denominator * unitTop
  let below := top / bottom
  match interval.holds below unitTop unitBottom, interval.holds (below + 1) unitTop unitBottom with
  | true, true => if 2 * (top % bottom) < bottom then some below else some (below + 1)
  | true, false => some below
  | false, true => some (below + 1)
  | false, false => none

/-- The shortest digits and the place of their last one.  Seventeen digits always suffice; a row of
nines that is rounded up is a one in the place before them. -/
def shortestDigits (interval : Reading) (place : Int) : Nat × Int :=
  let found := (List.range 17).findSome? fun fewer =>
    (digitsWith interval place (fewer + 1)).map fun digits =>
      if digits = tenToThe (fewer + 1) then (1, place) else (digits, place - (fewer + 1 : Nat))
  found.getD (0, 0)

/-- Digits with the point written out, the last digit standing for `10 ^ last`. -/
def positional (digits : Nat) (last : Int) : String :=
  let written := Nat.toDigits 10 digits
  if 0 ≤ last then String.ofList (written ++ List.replicate last.toNat '0')
  else
    let places := (-last).toNat
    let padded := List.replicate (places + 1 - written.length) '0' ++ written
    let before := padded.length - places
    String.ofList (padded.take before ++ '.' :: padded.drop before)

/-- The shortest positional text of a number. -/
def shortest (number : Binary64) : String :=
  if number.mantissa = 0 then "0"
  else
    let interval := reading number
    let (digits, last) := shortestDigits interval (pointPlace interval)
    positional digits last

end Custody.Decimal
