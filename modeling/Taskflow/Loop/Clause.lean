import Taskflow.Loop.Statement
import Taskflow.Text.Cut
import Taskflow.Text.Identifier

/-!
# Loop clauses

The written form of a loop: `variable in expression`, or `key, value in expression` for a
map. What binds the loop stands before the first ` in `, so the expression may contain that
word again. A clause of three bare words may have any blanks between them. A blank clause
stands for no loop.
-/

namespace Taskflow.LoopClause

open Text

/-- What separates the bound names from the expression. -/
def separator : List Char := [' ', 'i', 'n', ' ']

/-- What a loop binds. -/
inductive Binder
  /-- One variable for the elements of a list. -/
  | element (varName : List Char)
  /-- Two variables for the entries of a map. -/
  | entry (keyName valueName : List Char)
  deriving DecidableEq

/-- A variable and an expression, if the clause is three words: an identifier, `in`, and an
identifier. -/
def bareWords? (clause : List Char) : Option (List Char × List Char) :=
  match words clause with
  | [varName, ['i', 'n'], expression] =>
    if isIdentifier varName && isIdentifier expression then some (varName, expression) else none
  | _ => none

/-- What stands before the separator, and the expression behind it without surrounding blanks.
Without a separator the expression is empty. -/
def splitClause (clause : List Char) : List Char × List Char :=
  match cut? separator clause with
  | some (binder, expression) => (binder, trim expression)
  | none => (clause, [])

/-- Two identifiers with a comma between them, if that is what the text is. -/
def pair? (text : List Char) : Option (List Char × List Char) :=
  match cut? [','] text with
  | none => none
  | some (first, second) =>
    if isIdentifier (trim first) && isIdentifier (trim second) then
      some (trim first, trim second)
    else none

/-- Read what stands before the separator. -/
def readBinder (text : List Char) : Except Fault Binder :=
  match pair? text with
  | some (keyName, valueName) => .ok (.entry keyName valueName)
  | none =>
    if isIdentifier (trim text) then .ok (.element (trim text))
    else .error (.characterRules (String.ofList (trim text)))

/-- The statement that binds the given names over an expression. -/
def Binder.over (binder : Binder) (expression : List Char) (inParallel : Bool) :
    Except Fault LoopStatement :=
  match binder with
  | .element varName => LoopStatement.overList (.ofList varName) (.ofList expression) inParallel
  | .entry keyName valueName =>
    LoopStatement.overMap (.ofList keyName) (.ofList valueName) (.ofList expression) inParallel

/-- Read a clause that is not blank. -/
def readChars (clause : List Char) (inParallel : Bool) : Except Fault LoopStatement :=
  match bareWords? clause with
  | some (varName, expression) => (Binder.element varName).over expression inParallel
  | none => do
    let (text, expression) := splitClause clause
    let binder ← readBinder text
    binder.over expression inParallel

/-- Read a clause. Whether the loop is parallel is the keyword's choice, not the clause's. -/
def read (clause : String) (inParallel : Bool) : Except Fault (Option LoopStatement) :=
  if isBlankText clause.toList then .ok none
  else (readChars clause.toList inParallel).map some

/-- The clause of a statement. -/
def write : LoopStatement → String
  | .list varName expression _ => varName ++ " in " ++ expression
  | .mapFor keyName valueName expression _ => keyName ++ "," ++ valueName ++ " in " ++ expression

end Taskflow.LoopClause
