import Taskflow.Compile.Task
import Taskflow.Document.View

/-!
# Compiling the tasks of a flow

The tasks of a flow are compiled in order, each with the name of the one behind it. A branch
for failures is compiled first and follows the main tasks; its first task is where main tasks
go on failure.
-/

namespace Taskflow.Compile

/-- The key of the tasks of a flow. -/
def workflowKey : String := "workflow"

/-- The key of the branch for failures among the tasks. -/
def onFailureKey : String := "on_failure"

/-- Compile tasks in order; each is followed by the next one. -/
def tasks (context : Context) (failureTarget : String) : Mapping → Except Fault (List Task)
  | [] => .ok []
  | (name, value) :: rest => do
    let body ← value.asBody name
    let first ← task context name body (rest.head?.map Prod.fst) failureTarget
    let others ← tasks context failureTarget rest
    return first :: others

/-- The entries of the map that a keyword names, of which there must be some. A list there has a
fault of its own. -/
def filledMap (key : String) (missing : Fault) (body : Mapping) : Except Fault Mapping :=
  match body.lookup? key with
  | some (.map (entry :: entries)) => .ok (entry :: entries)
  | some (.list _) => .error (.expectedMap key)
  | _ => .error missing

/-- The tasks that a flow declares, of which there must be some. -/
def declaredTasks (name : String) (body : Mapping) : Except Fault Mapping :=
  filledMap workflowKey (.noWorkflowData name) body

/-- The tasks of the branch for failures, which may be absent or null. -/
def failureEntries (declared : Mapping) : Except Fault Mapping :=
  match declared.get? onFailureKey with
  | none => .ok []
  | some value => value.asBody onFailureKey

/-- All declared tasks but the branch for failures. -/
def mainEntries (declared : Mapping) : Mapping :=
  declared.filter fun entry => entry.1 != onFailureKey

/-- Where main tasks go on failure: to the first task that handles failures, or to the end. -/
def failureTarget (handlers : List Task) : String :=
  (handlers.head?.map Task.name).getD failureResult

/-- Compile the main tasks, of which there must be some. -/
def mainTasks (context : Context) (target : String) (entries : Mapping) :
    Except Fault (List Task) :=
  if entries.isEmpty then .error .noTasks else tasks context target entries

/-- Compile the tasks of a flow. -/
def workflow (context : Context) (name : String) (body : Mapping) : Except Fault Workflow := do
  let declared ← declaredTasks name body
  let failures ← failureEntries declared
  let handlers ← tasks context failureResult failures
  let main ← mainTasks context (failureTarget handlers) (mainEntries declared)
  return ⟨main ++ handlers⟩

end Taskflow.Compile
