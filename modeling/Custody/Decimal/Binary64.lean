/-
# Numbers with fifty-three significant bits

Seconds are reported as numbers of the form `mantissa * 2 ^ exponent` with at most fifty-three bits
in the mantissa.  Every operation is the exact result rounded to the nearest such number, a tie
going to the even mantissa.  Only non-negative numbers far from both ends of the exponent range
occur here, so neither overflow nor gradual underflow has to be described.
-/

import Custody.Duration

namespace Custody

/-- A non-negative number `mantissa * 2 ^ exponent`.  Zero has mantissa zero; any other number has
exactly fifty-three bits in its mantissa. -/
structure Binary64 where
  mantissa : Nat
  exponent : Int
deriving DecidableEq, Repr

/-- Two to a power. -/
def twoToThe (power : Nat) : Nat := Nat.pow 2 power

/-- Ten to a power. -/
def tenToThe (power : Nat) : Nat := Nat.pow 10 power

/-- The first number with fifty-four bits; mantissas stay below it. -/
def mantissaBound : Nat := twoToThe 53

/-- The whole number nearest to a quotient, a tie going to the even one. -/
def roundHalfEven (numerator denominator : Nat) : Nat :=
  let whole := numerator / denominator
  let rest := 2 * (numerator % denominator)
  if rest < denominator then whole
  else if denominator < rest then whole + 1
  else if whole % 2 = 0 then whole else whole + 1

namespace Binary64

/-- Zero. -/
def zero : Binary64 := ⟨0, 0⟩

/-- The numerator of the exact value. -/
def numerator (number : Binary64) : Nat := number.mantissa * twoToThe number.exponent.toNat

/-- The denominator of the exact value, a power of two. -/
def denominator (number : Binary64) : Nat := twoToThe (-number.exponent).toNat

/-- A quotient over `2 ^ exponent`, as a quotient of whole numbers. -/
def scaled (numerator denominator : Nat) (exponent : Int) : Nat × Nat :=
  (numerator * twoToThe (-exponent).toNat, denominator * twoToThe exponent.toNat)

/-- The number nearest to a quotient.  The exponent is chosen so that the mantissa has fifty-three
bits; rounding up to a power of two moves it by one. -/
def ofRatio (numerator denominator : Nat) : Binary64 :=
  if numerator = 0 then zero
  else
    let low : Int := (Nat.log2 numerator : Int) - Nat.log2 denominator - 53
    let (top, bottom) := scaled numerator denominator low
    let exponent := if mantissaBound ≤ top / bottom then low + 1 else low
    let (top, bottom) := scaled numerator denominator exponent
    let mantissa := roundHalfEven top bottom
    if mantissa = mantissaBound then ⟨mantissaBound / 2, exponent + 1⟩ else ⟨mantissa, exponent⟩

/-- The number nearest to a whole number. -/
def ofNat (value : Nat) : Binary64 := ofRatio value 1

/-- The rounded sum. -/
def add (first second : Binary64) : Binary64 :=
  ofRatio
    (first.numerator * second.denominator + second.numerator * first.denominator)
    (first.denominator * second.denominator)

/-- The rounded quotient. -/
def div (first second : Binary64) : Binary64 :=
  ofRatio (first.numerator * second.denominator) (first.denominator * second.numerator)

end Binary64

namespace Duration

/-- A duration in seconds: the whole seconds and the fraction are rounded first, then their sum. -/
def seconds (duration : Duration) : Binary64 :=
  (Binary64.ofNat duration.wholeSeconds).add (Binary64.ofRatio duration.subsecNanos 1000000000)

/-- The duration nearest to a number of seconds, to the nanosecond. -/
def nearest (seconds : Binary64) : Duration :=
  ⟨roundHalfEven (seconds.numerator * 1000000000) seconds.denominator⟩

end Duration

end Custody
