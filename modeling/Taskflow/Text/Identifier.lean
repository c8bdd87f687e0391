/-!
# Identifiers

A name that a loop may bind: one or more ASCII letters, ASCII digits and underscores.
-/

namespace Taskflow.Text

/-- Whether a character may stand in an identifier. -/
def isNameChar (c : Char) : Bool := c.isAlphanum || c == '_'

/-- Whether a text is an identifier: it is not empty and holds name characters only. -/
def isIdentifier (text : List Char) : Bool := !text.isEmpty && text.all isNameChar

/-- An identifier is a non-empty run of name characters. -/
theorem isIdentifier_iff {text : List Char} :
    isIdentifier text = true ↔ text ≠ [] ∧ ∀ c ∈ text, isNameChar c = true := by
  simp [isIdentifier]

end Taskflow.Text
