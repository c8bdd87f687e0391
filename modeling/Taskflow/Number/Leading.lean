import Taskflow.Number.Basic

/-!
# Reading literals by their leading digits

A JSON text is read in one go, so a literal in it is not rounded as a whole. The digits in front
are kept as long as they fit in 64 bits and then scaled by a power of ten, each step being rounded
on its own. The value may miss the nearest one in its last place, and close to the greatest finite
value this decides whether there is a value at all.
-/

namespace Taskflow.Number

/-- The product of two values, rounded. -/
def Binary64.mul? (x y : Binary64) : Option Binary64 :=
  ofRatio? (x.negative != y.negative) (x.numerator * y.numerator) (x.denominator * y.denominator)

/-- The quotient of a value and a value other than zero, rounded. -/
def Binary64.div? (x y : Binary64) : Option Binary64 :=
  ofRatio? (x.negative != y.negative) (x.numerator * y.denominator) (x.denominator * y.numerator)

/-- The exponent of the greatest power of ten among the finite values. -/
def greatestPower : Nat := 308

/-- The value nearest to a power of ten. -/
def Binary64.powerOfTen? (places : Nat) : Option Binary64 := ofDecimal? false 1 places

/-- Multiply a value by a power of ten. -/
def Binary64.scaleUp? (x : Binary64) (places : Nat) : Option Binary64 :=
  if x.significand = 0 then some x
  else if greatestPower < places then none
  else (powerOfTen? places).bind x.mul?

/-- Divide a value by a power of ten. A power beyond the finite values is divided by in steps. -/
def Binary64.scaleDown? (x : Binary64) (places : Nat) : Option Binary64 :=
  if x.significand = 0 then some x
  else if greatestPower < places then
    ((powerOfTen? greatestPower).bind x.div?).bind (·.scaleDown? (places - greatestPower))
  else (powerOfTen? places).bind x.div?
termination_by places
decreasing_by
  unfold greatestPower at *
  omega

/-- Append digits to a number as long as it fits in 64 bits. The digits left over come second. -/
def appendFitting (start : Nat) : List Char → Nat × List Char
  | [] => (start, [])
  | c :: rest =>
    let next := appendDigit start c
    if next < Nat.pow 2 64 then appendFitting next rest else (start, c :: rest)

/-- The digits that are kept of a literal and the power of ten they are scaled by. Digits left
over before the point still count as places, those behind it do not. -/
def Literal.leading (l : Literal) : Nat × Int :=
  let fraction := l.fraction.getD []
  let (whole, beforePoint) := appendFitting 0 l.whole
  let (digits, behindPoint) := appendFitting whole fraction
  (digits, l.power + beforePoint.length - (fraction.length - behindPoint.length : Nat))

/-- The value of a literal by its leading digits, or nothing if it gets beyond the finite
values. -/
def Literal.leadingBinary64? (l : Literal) : Option Binary64 :=
  let (digits, power) := l.leading
  (Binary64.ofRatio? l.negative digits 1).bind fun start =>
    if power < 0 then start.scaleDown? (-power).toNat else start.scaleUp? power.toNat

/-- The number that a literal of a JSON text denotes: an integer, or else a value by the leading
digits, if that stays within the finite values. -/
def ofLeading? (l : Literal) : Option Number :=
  match l.int? with
  | some value => some (.int value)
  | none => l.leadingBinary64?.map .real

end Taskflow.Number
