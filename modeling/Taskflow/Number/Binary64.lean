/-!
# Finite 64-bit floating-point values

A finite value is a sign, a significand below 2^53 and a power of two. A ratio of natural
numbers is rounded to the nearest such value in exact arithmetic, a tie going to the even
significand.
-/

namespace Taskflow.Number

/-- The value `± significand * 2 ^ exponent`. -/
structure Binary64 where
  /-- Whether the sign is negative; zero has a sign too. -/
  negative : Bool
  /-- The significand, below 2^53. -/
  significand : Nat
  /-- The power of two, between -1074 and 971. -/
  exponent : Int
  deriving DecidableEq, Repr

/-- The quotient rounded to the nearest natural number, a tie going to the even neighbour. -/
def divNearest (numerator denominator : Nat) : Nat :=
  let quotient := numerator / denominator
  let remainder := numerator % denominator
  if 2 * remainder < denominator then quotient
  else if denominator < 2 * remainder then quotient + 1
  else quotient + quotient % 2

/-- The numerator of the magnitude of a value as a ratio. -/
def Binary64.numerator (x : Binary64) : Nat := x.significand * Nat.pow 2 x.exponent.toNat

/-- The denominator of the magnitude of a value as a ratio. -/
def Binary64.denominator (x : Binary64) : Nat := Nat.pow 2 (-x.exponent).toNat

/-- Zero with the given sign. -/
def Binary64.zero (negative : Bool) : Binary64 := ⟨negative, 0, -1074⟩

/-- The power of two at which a positive ratio has a significand of 53 bits, or the least
power if the ratio is too small for that. -/
def scaleOfRatio (numerator denominator : Nat) : Int :=
  let guess : Int := (numerator.log2 : Int) - denominator.log2 - 52
  let tooLarge :=
    numerator * Nat.pow 2 (-guess).toNat < Nat.pow 2 52 * denominator * Nat.pow 2 guess.toNat
  max (if tooLarge then guess - 1 else guess) (-1074)

/-- The value nearest to a ratio, or nothing if the ratio is beyond the finite values. -/
def Binary64.ofRatio? (negative : Bool) (numerator denominator : Nat) : Option Binary64 :=
  if numerator = 0 then some (.zero negative)
  else
    let scale := scaleOfRatio numerator denominator
    let rounded :=
      divNearest (numerator * Nat.pow 2 (-scale).toNat) (denominator * Nat.pow 2 scale.toNat)
    let value : Binary64 :=
      if rounded = Nat.pow 2 53 then ⟨negative, Nat.pow 2 52, scale + 1⟩
      else ⟨negative, rounded, scale⟩
    if 971 < value.exponent then none else some value

/-- The number of decimal digits of a natural number. -/
def decimalLength (n : Nat) : Nat := (Nat.toDigits 10 n).length

/-- The value nearest to `± digits * 10 ^ exponent`. Exponents so large or small that the
answer is known from the number of digits are settled first. -/
def Binary64.ofDecimal? (negative : Bool) (digits : Nat) (exponent : Int) : Option Binary64 :=
  let size := (decimalLength digits : Int) + exponent
  if digits = 0 || size < -330 then some (.zero negative)
  else if 310 < size then none
  else ofRatio? negative (digits * Nat.pow 10 exponent.toNat) (Nat.pow 10 (-exponent).toNat)

end Taskflow.Number
