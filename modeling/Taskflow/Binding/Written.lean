import Taskflow.Binding.Entry
import Taskflow.Loop.Clause

/-!
# The written form of bindings

How a binding is written in a document, with everything said explicitly.
-/

namespace Taskflow

/-- A text, or null for none. -/
def Value.ofText? : Option String → Value
  | some content => .text content
  | none => .null

/-- An input as a pair of its name and all its properties. -/
def Input.written (input : Input) : Value :=
  .map [(input.name, .map
    [(Input.defaultProperty, Value.ofText? input.expression),
      (Input.requiredProperty, .boolean input.required),
      (Input.encryptedProperty, .boolean input.encrypted),
      (Input.overridableProperty, .boolean input.overridable)])]

/-- An output as a pair of its name and its expression. -/
def Output.written (output : Output) : Value := .map [(output.name, .text output.expression)]

/-- A result as its name, or as a pair of its name and its expression. -/
def ResultBinding.written (result : ResultBinding) : Value :=
  match result.expression with
  | none => .text result.name
  | some expression => .map [(result.name, .text expression)]

/-- An action as a map of its class and its method. -/
def JavaAction.written (action : JavaAction) : Value :=
  .map [(JavaAction.classProperty, .text action.className),
    (JavaAction.methodProperty, .text action.methodName)]

/-- The written form of a binding. -/
def Binding.written : Binding → Value
  | .inputs items => .list (items.map Input.written)
  | .outputs items => .list (items.map Output.written)
  | .results items => .list (items.map ResultBinding.written)
  | .javaAction action => action.written
  | .script code => .text code
  | .loop statement => .text (LoopClause.write statement)
  | .navigation targets => .map (targets.toList.map fun (result, target) => (result, .text target))
  | .names items => .list (items.map Value.text)

end Taskflow
