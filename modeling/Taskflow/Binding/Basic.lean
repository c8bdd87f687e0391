import Taskflow.Dict
import Taskflow.Loop.Statement

/-!
# Bindings

What the value under a keyword stands for once it has been read: declared inputs, outputs and
results, an action, a loop, a navigation or a list of result names.
-/

namespace Taskflow

/-- A declared input of an executable, or an argument that a task passes on. -/
structure Input where
  /-- The name that the value is bound to. -/
  name : String
  /-- The default value; without one the caller gives the value. -/
  expression : Option String
  /-- Whether a value must be given. -/
  required : Bool
  /-- Whether the value is kept encrypted. -/
  encrypted : Bool
  /-- Whether the default may be overridden. -/
  overridable : Bool
  deriving DecidableEq, Repr

/-- The input with the given name and nothing said about it. -/
def Input.named (name : String) : Input := ⟨name, none, true, false, false⟩

/-- A name that receives the value of an expression. -/
structure Output where
  /-- The name that receives the value. -/
  name : String
  /-- The expression of the value. -/
  expression : String
  deriving DecidableEq, Repr

/-- A possible result of an executable. Without an expression it always matches. -/
structure ResultBinding where
  /-- The name of the result. -/
  name : String
  /-- The condition under which the result matches. -/
  expression : Option String
  deriving DecidableEq, Repr

/-- The method of a class that an operation calls. -/
structure JavaAction where
  /-- The class. -/
  className : String
  /-- The method of the class. -/
  methodName : String
  deriving DecidableEq, Repr

/-- The next task, or the final result, for each result of a task. -/
abbrev Navigation := Dict String

/-- What the value under a keyword stands for. -/
inductive Binding
  | inputs (inputs : List Input)
  | outputs (outputs : List Output)
  | results (results : List ResultBinding)
  | javaAction (action : JavaAction)
  | script (code : String)
  | loop (statement : LoopStatement)
  | navigation (targets : Navigation)
  | names (names : List String)
  deriving DecidableEq

/-- The bindings of one scope under their keywords. -/
abbrev Bindings := Dict Binding

end Taskflow
