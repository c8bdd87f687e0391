import Taskflow.Executable
import Taskflow.Wire.Binding

/-!
# The hand-off form of compiled executables

An executable is a record whose tag says whether it is an operation or a flow. Everything else
in it is set aside until the tag is known.
-/

namespace Taskflow.Wire

/-- The kinds of executables. -/
def executableKinds : List String := ["operation", "flow"]

/-- The fields of a signature. -/
def signatureFields : List String :=
  ["namespace", "name", "inputs", "outputs", "results", "pre_executable_data",
    "post_executable_data"]

/-- The fields of a task. -/
def taskFields : List String :=
  ["name", "pre_task_data", "post_task_data", "navigation", "reference_id"]

/-- The hand-off form of a signature. -/
def ofSignature (signature : Signature) : Json :=
  .object [("namespace", .text signature.namespaceName), ("name", .text signature.name),
    ("inputs", .array (signature.inputs.map ofInput)),
    ("outputs", .array (signature.outputs.map ofOutput)),
    ("results", .array (signature.results.map ofResult)),
    ("pre_executable_data", ofBindings signature.before),
    ("post_executable_data", ofBindings signature.after)]

/-- The hand-off form of a task. -/
def ofTask (task : Task) : Json :=
  .object [("name", .text task.name), ("pre_task_data", ofBindings task.before),
    ("post_task_data", ofBindings task.after), ("navigation", ofNavigation task.navigation),
    ("reference_id", .text task.referenceId)]

/-- The hand-off form of a workflow. -/
def ofWorkflow (workflow : Workflow) : Json :=
  .object [("tasks", .array (workflow.tasks.map ofTask))]

/-- The hand-off form of an action. -/
def ofAction (action : Bindings) : Json := .object [("action_data", ofBindings action)]

/-- The hand-off form of an executable. -/
def ofExecutable : Executable → Json
  | .operation signature action =>
    .object [(kindTag, .text "operation"), ("signature", ofSignature signature),
      ("action", ofAction action)]
  | .flow signature workflow =>
    .object [(kindTag, .text "flow"), ("signature", ofSignature signature),
      ("workflow", ofWorkflow workflow)]

/-- Read a signature. -/
def signature? (tree : Json) : Option Signature := do
  match ← fields? signatureFields tree with
  | [namespaceName, name, inputs, outputs, results, before, after] =>
    let namespaceName ← namespaceName.bind text?
    let name ← name.bind text?
    let inputs ← inputs.bind (listOf? input?)
    let outputs ← outputs.bind (listOf? output?)
    let results ← results.bind (listOf? result?)
    let before ← before.bind (bindings? .setAside)
    let after ← after.bind (bindings? .setAside)
    return ⟨namespaceName, name, inputs, outputs, results, before, after⟩
  | _ => none

/-- Read a task. -/
def task? (tree : Json) : Option Task := do
  match ← fields? taskFields tree with
  | [name, before, after, navigation, referenceId] =>
    let name ← name.bind text?
    let before ← before.bind (bindings? .setAside)
    let after ← after.bind (bindings? .setAside)
    let navigation ← navigation.bind navigation?
    let referenceId ← referenceId.bind text?
    return ⟨name, before, after, navigation, referenceId⟩
  | _ => none

/-- Read a workflow. -/
def workflow? (tree : Json) : Option Workflow := do
  match ← fields? ["tasks"] tree with
  | [tasks] =>
    let tasks ← tasks.bind (listOf? task?)
    return ⟨tasks⟩
  | _ => none

/-- Read an action. -/
def action? (tree : Json) : Option Bindings := do
  match ← fields? ["action_data"] tree with
  | [action] => action.bind (bindings? .setAside)
  | _ => none

/-- Read the signature of an executable and what it runs. -/
def signatureAnd? {α : Type} (name : String) (part? : Json → Option α) (tree : Json) :
    Option (Signature × α) := do
  match ← fields? ["signature", name] tree with
  | [signature, part] =>
    let signature ← signature.bind signature?
    let part ← part.bind part?
    return (signature, part)
  | _ => none

/-- Read an executable. -/
def executable? (tree : Json) : Option Executable := do
  let (tag, rest) ← tagged? kindTag tree
  match ← tagIndex? .inPlace executableKinds tag with
  | 0 =>
    let (signature, action) ← signatureAnd? "action" action? rest
    return .operation signature action
  | _ =>
    let (signature, workflow) ← signatureAnd? "workflow" workflow? rest
    return .flow signature workflow

end Taskflow.Wire
