/-!
# Quoted text

What stands between the quotation marks of a JSON string: characters that denote themselves,
short escapes, and escapes of UTF-16 code units, of which two may form a surrogate pair.
-/

namespace Taskflow.Json

/-- One character, or one code unit written as an escape. -/
inductive QuotedPart
  | char (c : Char)
  | unit (code : Nat)
  deriving DecidableEq

/-- The value of a hexadecimal digit. -/
def hexDigit? (c : Char) : Option Nat :=
  if c.isDigit then some (c.toNat - '0'.toNat)
  else if 'a' ≤ c ∧ c ≤ 'f' then some (c.toNat - 'a'.toNat + 10)
  else if 'A' ≤ c ∧ c ≤ 'F' then some (c.toNat - 'A'.toNat + 10)
  else none

/-- The value of four hexadecimal digits. -/
def hexUnit? (a b c d : Char) : Option Nat := do
  let a ← hexDigit? a
  let b ← hexDigit? b
  let c ← hexDigit? c
  let d ← hexDigit? d
  return ((a * 16 + b) * 16 + c) * 16 + d

/-- The character that a short escape denotes. -/
def shortEscape? : Char → Option Char
  | '"' => some '"'
  | '\\' => some '\\'
  | '/' => some '/'
  | 'b' => some '\x08'
  | 'f' => some '\x0c'
  | 'n' => some '\n'
  | 'r' => some '\r'
  | 't' => some '\t'
  | _ => none

/-- Divide a quoted text into its parts, or refuse a wrong escape. -/
def quotedParts? : List Char → Option (List QuotedPart)
  | [] => some []
  | '\\' :: 'u' :: a :: b :: c :: d :: rest => do
    let code ← hexUnit? a b c d
    let parts ← quotedParts? rest
    return .unit code :: parts
  | '\\' :: mark :: rest => do
    let c ← shortEscape? mark
    let parts ← quotedParts? rest
    return .char c :: parts
  | c :: rest => do
    let parts ← quotedParts? rest
    return .char c :: parts

/-- Whether a code unit is the first of a surrogate pair. -/
def isHighSurrogate (code : Nat) : Bool := 0xD800 ≤ code && code ≤ 0xDBFF

/-- Whether a code unit is the second of a surrogate pair. -/
def isLowSurrogate (code : Nat) : Bool := 0xDC00 ≤ code && code ≤ 0xDFFF

/-- The text of parts, or nothing if half a surrogate pair stands alone. -/
def joinParts? : List QuotedPart → Option (List Char)
  | [] => some []
  | .char c :: rest => (joinParts? rest).map (c :: ·)
  | .unit high :: .unit low :: rest =>
    if isHighSurrogate high then
      if isLowSurrogate low then
        let code := 0x10000 + (high - 0xD800) * 0x400 + (low - 0xDC00)
        (joinParts? rest).map (Char.ofNat code :: ·)
      else none
    else if isLowSurrogate high then none
    else (joinParts? (.unit low :: rest)).map (Char.ofNat high :: ·)
  | .unit code :: rest =>
    if isHighSurrogate code || isLowSurrogate code then none
    else (joinParts? rest).map (Char.ofNat code :: ·)

end Taskflow.Json
