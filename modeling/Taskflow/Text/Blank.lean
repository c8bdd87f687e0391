/-!
# Blank characters

The characters that may surround a token without being part of it: those with the
Unicode property White_Space. A text is trimmed of them at its ends, or divided by them
into words.
-/

namespace Taskflow.Text

/-- The code points with the property White_Space, as closed ranges. -/
def blankRanges : List (Nat × Nat) :=
  [(0x0009, 0x000D), (0x0020, 0x0020), (0x0085, 0x0085), (0x00A0, 0x00A0), (0x1680, 0x1680),
    (0x2000, 0x200A), (0x2028, 0x2029), (0x202F, 0x202F), (0x205F, 0x205F), (0x3000, 0x3000)]

/-- Whether a code point lies in one of the closed ranges. -/
def inRanges (ranges : List (Nat × Nat)) (code : Nat) : Bool :=
  ranges.any fun range => decide (range.1 ≤ code) && decide (code ≤ range.2)

/-- Whether a character has the property White_Space. -/
def isBlank (c : Char) : Bool := inRanges blankRanges c.toNat

/-- Drop the blank characters at the front. -/
def trimStart (text : List Char) : List Char := text.dropWhile isBlank

/-- Drop the blank characters at the end. -/
def trimEnd (text : List Char) : List Char := (text.reverse.dropWhile isBlank).reverse

/-- Drop the blank characters at both ends. -/
def trim (text : List Char) : List Char := trimEnd (trimStart text)

/-- Whether a text has no character that is not blank. -/
def isBlankText (text : List Char) : Bool := text.all isBlank

/-- The maximal runs of characters that are not blank, in order. -/
def words : List Char → List (List Char)
  | [] => []
  | c :: rest =>
    if isBlank c then words rest
    else if rest.head?.all isBlank then [c] :: words rest
    else
      match words rest with
      | [] => [[c]]
      | word :: more => (c :: word) :: more

@[simp] theorem words_nil : words [] = [] := rfl

/-- A blank character at the front contributes no word. -/
theorem words_cons_of_isBlank {c : Char} {rest : List Char} (h : isBlank c = true) :
    words (c :: rest) = words rest := by
  simp [words, h]

end Taskflow.Text
