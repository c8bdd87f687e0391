import Taskflow.Number.Binary64

/-!
# Number literals

The written form of a number: an optional minus sign, digits without a superfluous leading
zero, an optional fraction and an optional exponent.
-/

namespace Taskflow.Number

/-- The parts of a number literal. -/
structure Literal where
  /-- Whether a minus sign stands in front. -/
  negative : Bool
  /-- The digits before the point. -/
  whole : List Char
  /-- The digits after the point, if there is one. -/
  fraction : Option (List Char)
  /-- The sign and the digits of the exponent, if there is one. -/
  exponent : Option (Bool × List Char)

/-- Append a decimal digit to a natural number. -/
def appendDigit (n : Nat) (digit : Char) : Nat := 10 * n + (digit.toNat - '0'.toNat)

/-- The natural number that a run of digits denotes. -/
def natOfDigits (digits : List Char) : Nat := digits.foldl appendDigit 0

/-- Split off the digits at the front. -/
def splitDigits (text : List Char) : List Char × List Char :=
  (text.takeWhile Char.isDigit, text.dropWhile Char.isDigit)

/-- Whether digits may stand before the point: at least one, and no zero in front of others. -/
def isWhole : List Char → Bool
  | [] => false
  | ['0'] => true
  | c :: _ => c != '0'

/-- Read an exponent: its mark, an optional sign and at least one digit. -/
def exponent? : List Char → Option (Option (Bool × List Char))
  | [] => some none
  | mark :: rest =>
    if mark ≠ 'e' ∧ mark ≠ 'E' then none
    else
      let (negative, digits) : Bool × List Char :=
        match rest with
        | '-' :: digits => (true, digits)
        | '+' :: digits => (false, digits)
        | digits => (false, digits)
      if digits.isEmpty || digits.any (!·.isDigit) then none else some (some (negative, digits))

/-- Read a fraction and the exponent behind it. -/
def fractionAndExponent? : List Char →
    Option (Option (List Char) × Option (Bool × List Char))
  | '.' :: rest =>
    let (digits, rest) := splitDigits rest
    if digits.isEmpty then none else (exponent? rest).map fun e => (some digits, e)
  | rest => (exponent? rest).map fun e => (none, e)

/-- Read a text as a number literal. -/
def Literal.ofChars? (text : List Char) : Option Literal :=
  let (negative, text) : Bool × List Char :=
    match text with
    | '-' :: rest => (true, rest)
    | rest => (false, rest)
  let (whole, rest) := splitDigits text
  if isWhole whole then
    (fractionAndExponent? rest).map fun (fraction, exponent) =>
      ⟨negative, whole, fraction, exponent⟩
  else none

/-- The exponent as an integer; without one it is zero. -/
def Literal.power (l : Literal) : Int :=
  match l.exponent with
  | none => 0
  | some (negative, digits) =>
    if negative then -(natOfDigits digits : Int) else (natOfDigits digits : Int)

/-- The 64-bit value nearest to the literal, or nothing if it is beyond the finite values. -/
def Literal.binary64? (l : Literal) : Option Binary64 :=
  let fraction := l.fraction.getD []
  Binary64.ofDecimal? l.negative (natOfDigits (l.whole ++ fraction)) (l.power - fraction.length)

/-- The integer that the literal denotes, if it is written without point and exponent, fits in
64 bits, signed or unsigned, and is not a zero with a minus sign. -/
def Literal.int? (l : Literal) : Option Int :=
  if l.fraction.isSome || l.exponent.isSome then none
  else
    let magnitude := natOfDigits l.whole
    if l.negative then
      if magnitude = 0 ∨ Nat.pow 2 63 < magnitude then none else some (-(magnitude : Int))
    else if Nat.pow 2 64 ≤ magnitude then none
    else some magnitude

end Taskflow.Number
