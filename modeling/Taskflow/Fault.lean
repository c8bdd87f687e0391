import Taskflow.Document.Shape

/-!
# Faults

Everything that can be wrong with a document, as causes, and the one place that words them. A
fault concerns the form of a value, a missing part of the structure, or a reference.
-/

namespace Taskflow

/-- What is wrong with one entry of a list or map. -/
inductive EntryFault
  /-- A list entry is a map that does not hold exactly one pair. -/
  | notOnePair (count : Nat)
  /-- The value under a name has no text. -/
  | notExpression (name : String) (found : Shape)
  /-- A property that asks for a boolean has another value. -/
  | notBoolean (property name : String) (found : Shape)
  /-- An input has a property that does not exist. -/
  | unknownProperty (property name : String)
  /-- An input is neither a name nor a pair. -/
  | notInput (found : Shape)
  /-- An output is neither a name nor a pair. -/
  | notOutput (found : Shape)
  /-- A result is neither a name nor a pair. -/
  | notResult (found : Shape)
  /-- A property that must be given is absent or blank. -/
  | required (property : String)
  /-- The target of a result is not a text. -/
  | notTarget (result : String) (found : Shape)
  /-- The name of a result is not a text. -/
  | notResultName (found : Shape)
  /-- An operation is not a map from its name to its body. -/
  | notBody (found : Shape)
  /-- An import alias does not name a namespace. -/
  | notNamespace (aliasName : String) (found : Shape)
  deriving DecidableEq, Repr

/-- The words for a faulty entry. -/
def EntryFault.message : EntryFault → String
  | .notOnePair count => s!"expected a single `name: value` pair but got {count} keys"
  | .notExpression name found =>
    s!"value of '{name}' must be an expression, got a {found.name}"
  | .notBoolean property name found =>
    s!"'{property}' of '{name}' must be a boolean, got a {found.name}"
  | .unknownProperty property name => s!"unknown property '{property}' of '{name}'"
  | .notInput found => s!"expected a name or `name: value` but got a {found.name}"
  | .notOutput found => s!"expected a name or `name: expression` but got a {found.name}"
  | .notResult found => s!"expected a result name or `name: expression` but got a {found.name}"
  | .required property => s!"'{property}' is required"
  | .notTarget result found =>
    s!"target of '{result}' must be a task name or result, got a {found.name}"
  | .notResultName found => s!"expected a result name but got a {found.name}"
  | .notBody found => s!"expected `name: body` but got a {found.name}"
  | .notNamespace aliasName found =>
    s!"alias '{aliasName}' must name a namespace, got a {found.name}"

/-- One of the two names that a loop over a map binds. -/
inductive LoopName
  | key
  | value
  deriving DecidableEq, Repr

/-- How a bound name is called in messages. -/
def LoopName.name : LoopName → String
  | .key => "key"
  | .value => "value"

/-- The reason why a document is refused. -/
inductive Fault
  /-- A key is no keyword of its place. -/
  | unknownKeyword (key context : String)
  /-- A loop variable is not an identifier. -/
  | characterRules (token : String)
  /-- A loop has no expression to run over. -/
  | emptyLoopExpression
  /-- A name that a loop binds is blank. -/
  | blankLoopName (which : LoopName)
  /-- A map stands in place of a list. -/
  | expectedList (key : String)
  /-- A list stands in place of a map. -/
  | expectedMap (key : String)
  /-- A value has another shape than the one asked for. -/
  | shapeMismatch (key : String) (expected : ExpectedShape) (found : Shape)
  /-- One entry under a key is faulty. -/
  | invalidEntry (key : String) (entry : EntryFault)
  /-- An executable has an empty body. -/
  | emptyExecutable (name : String)
  /-- A flow has no tasks to read. -/
  | noWorkflowData (name : String)
  /-- An operation has no action to read. -/
  | noActionData (name : String)
  /-- A workflow has no main task. -/
  | noTasks
  /-- A task has an empty body. -/
  | taskHasNoData (name : String)
  /-- A task does not say what it invokes. -/
  | noReferenceInformation (name : String)
  /-- A file declares neither a flow nor operations. -/
  | unsupportedFileKind (file : String)
  /-- A reference begins with an alias that is not imported. -/
  | unknownAlias (aliasName reference : String)
  /-- A reference does not begin with an alias. -/
  | missingAlias (reference : String)
  deriving DecidableEq, Repr

/-- What a fault is about. -/
inductive FaultArea
  /-- The form of keys and values. -/
  | validation
  /-- A missing part of the structure. -/
  | structural
  /-- A reference to another executable. -/
  | reference
  deriving DecidableEq, Repr

namespace Fault

/-- What the fault is about. -/
def area : Fault → FaultArea
  | .unknownKeyword .. | .characterRules _ | .emptyLoopExpression | .blankLoopName _
  | .expectedList _ | .expectedMap _ | .shapeMismatch .. | .invalidEntry .. => .validation
  | .emptyExecutable _ | .noWorkflowData _ | .noActionData _ | .noTasks | .taskHasNoData _
  | .noReferenceInformation _ | .unsupportedFileKind _ => .structural
  | .unknownAlias .. | .missingAlias _ => .reference

/-- The words for a fault. -/
def message : Fault → String
  | .unknownKeyword key context => s!"No transformer were found for key: {key} at: {context}"
  | .characterRules token => s!"Argument[{token}] violates character rules."
  | .emptyLoopExpression => "loop expression cannot be empty"
  | .blankLoopName which => s!"{which.name} name cannot be empty"
  | .expectedList key => s!"Key: '{key}' expected a list but got a map\n" ++
      "By the Yaml spec lists properties are marked with a '- ' (dash followed by a space)"
  | .expectedMap key => s!"Key: '{key}' expected a map but got a list\n" ++
      "By the Yaml spec maps properties are NOT marked with a '- ' (dash followed by a space)"
  | .shapeMismatch key expected found =>
    s!"Key: '{key}' expected a {expected.name} but got a {found.name}"
  | .invalidEntry key entry => s!"Key: '{key}' has an invalid entry: {entry.message}"
  | .emptyExecutable name => s!"Executable data for: {name} is empty"
  | .noWorkflowData name => s!"Flow: {name} has no workflow data"
  | .noActionData name => s!"Operation: {name} has no action data"
  | .noTasks => "Flow must have tasks in its workflow"
  | .taskHasNoData name => s!"Task: {name} has no data"
  | .noReferenceInformation name => s!"Task: {name} has no reference information"
  | .unsupportedFileKind file => s!"File: {file} is not a flow type or operations"
  | .unknownAlias aliasName reference =>
    s!"Reference: '{reference}' uses import alias '{aliasName}' " ++
      "which is not declared in the file imports"
  | .missingAlias reference => s!"Reference: '{reference}' is not qualified by an import alias"

end Fault

end Taskflow
