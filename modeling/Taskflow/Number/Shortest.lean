import Taskflow.Number.Binary64

/-!
# The shortest decimal that reads back

Every finite 64-bit value has an interval of reals that round to it. Its decimal is a point of
that interval with the fewest digits, and of those the nearest to the value.
-/

namespace Taskflow.Number

/-- The decimal `digits * 10 ^ exponent`. -/
structure Decimal where
  /-- All digits, without the point. -/
  digits : Nat
  /-- The power of ten of the last digit. -/
  exponent : Int
  deriving DecidableEq, Repr

/-- The reals that round to a value, over one denominator: the value itself, its two bounds,
and whether the bounds belong to the interval. -/
structure RoundingInterval where
  /-- The lower bound. -/
  lower : Nat
  /-- The value. -/
  value : Nat
  /-- The upper bound. -/
  upper : Nat
  /-- The common denominator. -/
  denominator : Nat
  /-- Whether the bounds round to the value too. -/
  closed : Bool

/-- The rounding interval of a value. The lower neighbour of a power of two is only half as
far away as the upper one. -/
def Binary64.interval (x : Binary64) : RoundingInterval :=
  let power := x.exponent - 2
  let unit := Nat.pow 2 power.toNat
  let below := if x.significand = Nat.pow 2 52 ∧ -1074 < x.exponent then 1 else 2
  { lower := (4 * x.significand - below) * unit
    value := 4 * x.significand * unit
    upper := (4 * x.significand + 2) * unit
    denominator := Nat.pow 2 (-power).toNat
    closed := x.significand % 2 == 0 }

/-- Whether `n * 10 ^ exponent` lies in the interval. -/
def RoundingInterval.holds (interval : RoundingInterval) (exponent : Int) (n : Nat) : Bool :=
  let point := n * Nat.pow 10 exponent.toNat * interval.denominator
  let unit := Nat.pow 10 (-exponent).toNat
  if interval.closed then interval.lower * unit ≤ point && point ≤ interval.upper * unit
  else interval.lower * unit < point && point < interval.upper * unit

/-- The point of the grid of multiples of `10 ^ exponent` that lies in the interval, if there is
one: of the value's two neighbours on the grid the nearer one, a tie going to the even one. -/
def RoundingInterval.pointOnGrid? (interval : RoundingInterval) (exponent : Int) : Option Nat :=
  let value := interval.value * Nat.pow 10 (-exponent).toNat
  let unit := interval.denominator * Nat.pow 10 exponent.toNat
  let below := value / unit
  let nearest := divNearest value unit
  let other := if nearest = below then below + 1 else below
  if interval.holds exponent nearest then some nearest
  else if interval.holds exponent other then some other
  else none

/-- The power of ten of the value's first decimal digit. -/
def RoundingInterval.magnitude (interval : RoundingInterval) : Int :=
  let guess : Int := (decimalLength interval.value : Int) - decimalLength interval.denominator
  if interval.denominator * Nat.pow 10 guess.toNat ≤ interval.value * Nat.pow 10 (-guess).toNat
  then guess
  else guess - 1

/-- The decimal of a point of a grid. Ten units of the coarsest grid are one unit of the next
coarser; a point of a finer grid does not end in zero, since a coarser grid would have held it. -/
def Decimal.ofPoint (digits : Nat) (exponent : Int) : Decimal :=
  if digits % 10 = 0 then ⟨digits / 10, exponent + 1⟩ else ⟨digits, exponent⟩

/-- The shortest decimal of the magnitude of a value. Seventeen digits always suffice. -/
def Binary64.shortest (x : Binary64) : Decimal :=
  let interval := x.interval
  let magnitude := interval.magnitude
  let found := (List.range 17).findSome? fun (further : Nat) =>
    let exponent := magnitude - further
    (interval.pointOnGrid? exponent).map (Decimal.ofPoint · exponent)
  found.getD ⟨0, 0⟩

end Taskflow.Number
