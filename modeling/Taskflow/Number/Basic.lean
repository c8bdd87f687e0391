import Taskflow.Number.Literal
import Taskflow.Number.Shortest

/-!
# Numbers and their text

A number of a document is an integer of at most 64 bits or a finite 64-bit value. It is used
only through its text: the decimal integer, or the shortest decimal that reads back.
-/

namespace Taskflow

/-- A number of a document. -/
inductive Number
  /-- An integer, signed or unsigned, of at most 64 bits. -/
  | int (value : Int)
  /-- A finite 64-bit value. -/
  | real (value : Number.Binary64)
  deriving DecidableEq, Repr

namespace Number

/-- The number that a literal denotes, or nothing if it is beyond the finite values. -/
def ofLiteral? (l : Literal) : Option Number :=
  match l.int? with
  | some value => some (.int value)
  | none => l.binary64?.map .real

/-- How decimals are laid out: the exponents of the first digit that are written with a point
among the digits. All others are written with one digit before the point and an exponent. -/
structure DecimalLayout where
  /-- The least exponent written positionally. -/
  least : Int
  /-- The greatest exponent written positionally. -/
  greatest : Int

/-- Decimals are positional from hundred-thousandths up to sixteen digits before the point. -/
def layout : DecimalLayout := ⟨-5, 15⟩

/-- The digits with a point in front of the last `places` of them, zeros filling up on either
side. A point is always written, with a digit on either side of it. -/
def positional (digits : List Char) (exponent : Int) : List Char :=
  let places := (-exponent).toNat
  let padded := digits ++ List.replicate exponent.toNat '0'
  let padded := List.replicate (places + 1 - padded.length) '0' ++ padded
  let whole := padded.take (padded.length - places)
  let fraction := padded.drop (padded.length - places)
  whole ++ '.' :: (if fraction.isEmpty then ['0'] else fraction)

/-- The digits with a point behind the first, if there are more, and the exponent of the first
digit with its sign. -/
def scientific (digits : List Char) (power : Int) : List Char :=
  let mantissa := digits.take 1 ++ (if digits.length ≤ 1 then [] else '.' :: digits.drop 1)
  mantissa ++ ['e', if power < 0 then '-' else '+'] ++ Nat.toDigits 10 power.natAbs

/-- A decimal in the given layout. -/
def DecimalLayout.write (l : DecimalLayout) (d : Decimal) : List Char :=
  let digits := Nat.toDigits 10 d.digits
  let power := d.exponent + digits.length - 1
  if l.least ≤ power && power ≤ l.greatest then positional digits d.exponent
  else scientific digits power

/-- The text of a 64-bit value. -/
def Binary64.text (x : Binary64) : List Char :=
  let magnitude := if x.significand = 0 then positional ['0'] 0 else layout.write x.shortest
  if x.negative then '-' :: magnitude else magnitude

/-- The text of an integer. -/
def intText (value : Int) : List Char :=
  let digits := Nat.toDigits 10 value.natAbs
  if value < 0 then '-' :: digits else digits

/-- The text of a number. -/
def text : Number → String
  | .int value => String.ofList (intText value)
  | .real value => String.ofList value.text

end Number

end Taskflow
