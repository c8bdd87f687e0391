/-!
# JSON lexemes

The smallest parts of a JSON text: marks, words and quoted texts, with blanks between them. They
are found in one pass over the characters.
-/

namespace Taskflow.Json

/-- A smallest part of a JSON text. -/
inductive Lexeme
  /-- A bracket, a brace, a comma or a colon. -/
  | mark (c : Char)
  /-- A number or a name of a constant. -/
  | word (text : List Char)
  /-- What stands between quotation marks, escapes included. -/
  | quoted (text : List Char)
  deriving DecidableEq

/-- Whether a character may stand between lexemes. -/
def isBetween (c : Char) : Bool := c == ' ' || c == '\t' || c == '\n' || c == '\r'

/-- Whether a character is a lexeme of its own. -/
def isMark (c : Char) : Bool :=
  c == '[' || c == ']' || c == '\x7b' || c == '\x7d' || c == ',' || c == ':'

/-- Whether a character may stand in a word. -/
def isWordChar (c : Char) : Bool := c.isAlphanum || c == '+' || c == '-' || c == '.'

/-- What the characters read so far have left unfinished; they are kept in reverse. -/
inductive Unfinished
  /-- Nothing. -/
  | nothing
  /-- A word. -/
  | word (read : List Char)
  /-- A quoted text. -/
  | quoted (read : List Char)
  /-- A quoted text in which the next character belongs to an escape. -/
  | escaped (read : List Char)
  deriving DecidableEq

/-- A pass over a text: the lexemes found so far in reverse, and what is unfinished. -/
structure Pass where
  /-- The lexemes found so far in reverse. -/
  found : List Lexeme
  /-- What is unfinished. -/
  unfinished : Unfinished

/-- Read a character with nothing unfinished. -/
def Pass.begin? (found : List Lexeme) (c : Char) : Option Pass :=
  if isBetween c then some ⟨found, .nothing⟩
  else if isMark c then some ⟨.mark c :: found, .nothing⟩
  else if c == '"' then some ⟨found, .quoted []⟩
  else if isWordChar c then some ⟨found, .word [c]⟩
  else none

/-- Read a character. Control characters may not stand in a quoted text. -/
def Pass.step? (pass : Pass) (c : Char) : Option Pass :=
  match pass.unfinished with
  | .nothing => begin? pass.found c
  | .word read =>
    if isWordChar c then some ⟨pass.found, .word (c :: read)⟩
    else begin? (.word read.reverse :: pass.found) c
  | .quoted read =>
    if c == '"' then some ⟨.quoted read.reverse :: pass.found, .nothing⟩
    else if c.toNat < 0x20 then none
    else if c == '\\' then some ⟨pass.found, .escaped (c :: read)⟩
    else some ⟨pass.found, .quoted (c :: read)⟩
  | .escaped read => if c.toNat < 0x20 then none else some ⟨pass.found, .quoted (c :: read)⟩

/-- The lexemes at the end of a text, if no quoted text is open. -/
def Pass.finish? (pass : Pass) : Option (List Lexeme) :=
  match pass.unfinished with
  | .nothing => some pass.found.reverse
  | .word read => some (.word read.reverse :: pass.found).reverse
  | _ => none

/-- The lexemes of a text. -/
def lexemes? (text : List Char) : Option (List Lexeme) := do
  let pass ← text.foldlM Pass.step? ⟨[], .nothing⟩
  pass.finish?

end Taskflow.Json
