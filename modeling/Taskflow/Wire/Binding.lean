import Taskflow.Binding.Basic
import Taskflow.Wire.Loop

/-!
# The hand-off form of bindings

A binding is an object of its type and its value. If the value comes before the type it is set
aside until the type is known.
-/

namespace Taskflow.Wire

/-- The member that holds the type of a binding. -/
def typeTag : String := "type"

/-- The member that holds the value of a binding. -/
def valueTag : String := "value"

/-- The types of bindings. -/
def bindingTypes : List String :=
  ["inputs", "outputs", "results", "java_action", "script", "loop", "navigation", "names"]

/-- The fields of an input. -/
def inputFields : List String := ["name", "expression", "required", "encrypted", "overridable"]

/-- The fields of an output or a result. -/
def outputFields : List String := ["name", "expression"]

/-- The fields of an action. -/
def javaActionFields : List String := ["class_name", "method_name"]

/-- A text, or null for none. -/
def ofText? : Option String → Json
  | some value => .text value
  | none => .null

/-- The hand-off form of an input. -/
def ofInput (input : Input) : Json :=
  .object [("name", .text input.name), ("expression", ofText? input.expression),
    ("required", .boolean input.required), ("encrypted", .boolean input.encrypted),
    ("overridable", .boolean input.overridable)]

/-- The hand-off form of an output. -/
def ofOutput (output : Output) : Json :=
  .object [("name", .text output.name), ("expression", .text output.expression)]

/-- The hand-off form of a result. -/
def ofResult (result : ResultBinding) : Json :=
  .object [("name", .text result.name), ("expression", ofText? result.expression)]

/-- The hand-off form of an action. -/
def ofJavaAction (action : JavaAction) : Json :=
  .object [("class_name", .text action.className), ("method_name", .text action.methodName)]

/-- The object of the entries of a dictionary. -/
def ofDict {α : Type} (ofValue : α → Json) (entries : Dict α) : Json :=
  .object (entries.toList.map fun (key, value) => (key, ofValue value))

/-- The hand-off form of a navigation. -/
def ofNavigation (targets : Navigation) : Json := ofDict Json.text targets

/-- The object of a type and a value. -/
def typed (type : String) (value : Json) : Json :=
  .object [(typeTag, .text type), (valueTag, value)]

/-- The hand-off form of a binding. -/
def ofBinding : Binding → Json
  | .inputs items => typed "inputs" (.array (items.map ofInput))
  | .outputs items => typed "outputs" (.array (items.map ofOutput))
  | .results items => typed "results" (.array (items.map ofResult))
  | .javaAction action => typed "java_action" (ofJavaAction action)
  | .script code => typed "script" (.text code)
  | .loop statement => typed "loop" (ofLoop statement)
  | .navigation targets => typed "navigation" (ofNavigation targets)
  | .names items => typed "names" (.array (items.map Json.text))

/-- The hand-off form of bindings. -/
def ofBindings (bindings : Bindings) : Json := ofDict ofBinding bindings

/-- Read an input. Its expression may be missing. -/
def input? (tree : Json) : Option Input := do
  match ← fields? inputFields tree with
  | [name, expression, required, encrypted, overridable] =>
    let name ← name.bind text?
    let expression ← optionalText? (expression.getD .null)
    let required ← required.bind boolean?
    let encrypted ← encrypted.bind boolean?
    let overridable ← overridable.bind boolean?
    return ⟨name, expression, required, encrypted, overridable⟩
  | _ => none

/-- Read an output. -/
def output? (tree : Json) : Option Output := do
  match ← fields? outputFields tree with
  | [name, expression] =>
    let name ← name.bind text?
    let expression ← expression.bind text?
    return ⟨name, expression⟩
  | _ => none

/-- Read a result. Its expression may be missing. -/
def result? (tree : Json) : Option ResultBinding := do
  match ← fields? outputFields tree with
  | [name, expression] =>
    let name ← name.bind text?
    let expression ← optionalText? (expression.getD .null)
    return ⟨name, expression⟩
  | _ => none

/-- Read an action. -/
def javaAction? (tree : Json) : Option JavaAction := do
  match ← fields? javaActionFields tree with
  | [className, methodName] =>
    let className ← className.bind text?
    let methodName ← methodName.bind text?
    return ⟨className, methodName⟩
  | _ => none

/-- Read a navigation. -/
def navigation? (tree : Json) : Option Navigation := dictOf? text? tree

/-- Read the value of a binding whose type has the given place among the types. -/
def bindingValue? (arrival : Arrival) (type : Nat) (value : Json) : Option Binding :=
  match type with
  | 0 => (listOf? input? value).map .inputs
  | 1 => (listOf? output? value).map .outputs
  | 2 => (listOf? result? value).map .results
  | 3 => (javaAction? value).map .javaAction
  | 4 => (text? value).map .script
  | 5 => (loop? arrival value).map .loop
  | 6 => (navigation? value).map .navigation
  | _ => (listOf? text? value).map .names

/-- Whether a member of the first name comes before one of the second. -/
def comesBefore (members : List (String × Json)) (first second : String) : Bool :=
  (members.find? fun member => member.1 == first || member.1 == second).any (·.1 == first)

/-- The place of the type of a binding among the types, the value of the binding, and how the
value arrives. In an object the type is a constant. In an array it comes first and is a tag. -/
def typeAndValue? (arrival : Arrival) : Json → Option (Nat × Json × Arrival)
  | .object members =>
    match occurrences members typeTag, occurrences members valueTag with
    | [type], [value] => do
      let type ← constantIndex? arrival bindingTypes type
      if comesBefore members valueTag typeTag then
        if value.isReadable then return (type, value, .setAside) else none
      else return (type, value, arrival)
    | _, _ => none
  | .array [type, value] => do
    let type ← tagIndex? arrival bindingTypes type
    return (type, value, arrival)
  | _ => none

/-- Read a binding. -/
def binding? (arrival : Arrival) (tree : Json) : Option Binding := do
  let (type, value, valueArrival) ← typeAndValue? arrival tree
  bindingValue? valueArrival type value

/-- Read bindings. -/
def bindings? (arrival : Arrival) (tree : Json) : Option Bindings := dictOf? (binding? arrival) tree

end Taskflow.Wire
