import Taskflow.Document.Shape
import Taskflow.Text.LowerCase

/-!
# Keywords

The closed set of keywords, the scopes in which each may stand, and the shape of the value that
each expects. The text of a keyword is the one declared for it or else derived from its type
name. The main statement says that no two keywords have the same text.
-/

namespace Taskflow

/-- A place in a document where keywords may stand. -/
inductive Scope
  | beforeExecutable
  | afterExecutable
  | action
  | beforeTask
  | afterTask
  deriving DecidableEq, Repr

/-- The name of a scope. -/
def Scope.name : Scope → String
  | .beforeExecutable => "BeforeExecutable"
  | .afterExecutable => "AfterExecutable"
  | .action => "Action"
  | .beforeTask => "BeforeTask"
  | .afterTask => "AfterTask"

/-- A keyword of the workflow language. -/
inductive Keyword
  | inputs
  | outputs
  | results
  | javaAction
  | pythonAction
  | invoke
  | loop
  | parallelLoop
  | publish
  | navigate
  | aggregate
  | breakOn
  deriving DecidableEq, Repr

/-- The suffix of type names that does not belong to the keyword. -/
def typeNameSuffix : String := "Transformer"

/-- A text without the given suffix, if it ends in it. -/
def withoutSuffix (suffix text : String) : String :=
  if suffix.toList.isSuffixOf text.toList then
    String.ofList (text.toList.take (text.length - suffix.length))
  else text

/-- The text of a keyword in lower case: the declared one, or else the type name without its
suffix. -/
def deriveKeyword (declared : Option String) (typeName : String) : String :=
  Text.lowerCase (declared.getD (withoutSuffix typeNameSuffix typeName))

namespace Keyword

/-- All keywords in their order of declaration. -/
def all : List Keyword :=
  [.inputs, .outputs, .results, .javaAction, .pythonAction, .invoke, .loop, .parallelLoop,
    .publish, .navigate, .aggregate, .breakOn]

/-- The name of what handles the keyword. -/
def typeName : Keyword → String
  | .inputs => "InputsTransformer"
  | .outputs => "OutputsTransformer"
  | .results => "ResultsTransformer"
  | .javaAction => "JavaActionTransformer"
  | .pythonAction => "PythonActionTransformer"
  | .invoke => "DoTransformer"
  | .loop => "LoopTransformer"
  | .parallelLoop => "ParallelLoopTransformer"
  | .publish => "PublishTransformer"
  | .navigate => "NavigateTransformer"
  | .aggregate => "AggregateTransformer"
  | .breakOn => "BreakTransformer"

/-- The declared text of a keyword, if it differs from its type name. -/
def declared? : Keyword → Option String
  | .javaAction => some "java_action"
  | .pythonAction => some "python_script"
  | .parallelLoop => some "parallel_loop"
  | _ => none

/-- The text of a keyword in documents. -/
def text (keyword : Keyword) : String := deriveKeyword keyword.declared? keyword.typeName

/-- The scopes in which a keyword may stand. -/
def scopes : Keyword → List Scope
  | .inputs => [.beforeExecutable]
  | .outputs | .results => [.afterExecutable]
  | .javaAction | .pythonAction => [.action]
  | .invoke | .loop | .parallelLoop => [.beforeTask]
  | .publish | .navigate | .aggregate | .breakOn => [.afterTask]

/-- The shape of the value that a keyword expects. -/
def expects : Keyword → ExpectedShape
  | .javaAction | .invoke | .navigate => .mapping
  | .pythonAction | .loop | .parallelLoop => .scalar
  | .inputs | .outputs | .results | .publish | .aggregate | .breakOn => .sequence

/-- Whether a keyword may stand in a scope. -/
def isInScope (keyword : Keyword) (scope : Scope) : Bool := keyword.scopes.contains scope

/-- Every keyword is listed. -/
theorem mem_all (keyword : Keyword) : keyword ∈ all := by cases keyword <;> decide

/-- No two keywords have the same text. -/
theorem text_injective {a b : Keyword} (h : a.text = b.text) : a = b := by
  revert h
  cases a <;> cases b <;> decide

end Keyword

end Taskflow
