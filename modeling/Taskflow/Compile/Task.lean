import Taskflow.Executable
import Taskflow.Keyword.Legal
import Taskflow.Settings

/-!
# Compiling one task

A task has a body of keywords. Its keys are checked first, then the bindings before and after
it are read, then its reference is resolved. Without an explicit navigation it goes on to the
next task on success and to the handling of failures otherwise.
-/

namespace Taskflow.Compile

/-- What the tasks of a file share: the settings and the imports. -/
structure Context where
  /-- The settings. -/
  settings : Settings
  /-- The imports of the file. -/
  imports : Imports

/-- The result of a task that went well, and the end of a flow that did. -/
def successResult : String := "SUCCESS"

/-- The result of a task that failed, and the end of a flow that did. -/
def failureResult : String := "FAILURE"

/-- The reserved keys of a task: those of its reference and its navigation, and those that the
settings add. -/
def Context.taskKeys (context : Context) : List String :=
  Keyword.invoke.text :: Keyword.navigate.text :: context.settings.extraTaskKeywords

/-- The keywords that may stand in a task. -/
def taskKeywords : List Keyword := Registry.standard.union [.beforeTask, .afterTask]

/-- Where a task goes on by default: to the next task, if there is one, and to the target of
failures. -/
def defaultNavigation (next : Option String) (failureTarget : String) : Navigation :=
  (Dict.empty.insert successResult (next.getD successResult)).insert failureResult failureTarget

/-- The reference that a task invokes: the only key under the keyword. -/
def taskReference (name : String) (body : Mapping) : Except Fault String :=
  match body.lookup? Keyword.invoke.text with
  | some (.map [(reference, _)]) => .ok reference
  | _ => .error (.noReferenceInformation name)

/-- The navigation of a task: the one it gives, if that is not empty, or the default. -/
def taskNavigation (after : Bindings) (next : Option String) (failureTarget : String) :
    Navigation :=
  match after.get? Keyword.navigate.text with
  | some (.navigation targets) =>
    if targets.isEmpty then defaultNavigation next failureTarget else targets
  | _ => defaultNavigation next failureTarget

/-- Compile a task, given the name of the task behind it and the target of failures. -/
def task (context : Context) (name : String) (body : Mapping) (next : Option String)
    (failureTarget : String) : Except Fault Task :=
  if body.isEmpty then .error (.taskHasNoData name)
  else do
    checkKeys body taskKeywords context.taskKeys name
    let before ← readBindings body (Registry.standard.inScope .beforeTask)
    let after ← readBindings body (Registry.standard.inScope .afterTask)
    let reference ← taskReference name body
    let referenceId ←
      Reference.resolveWith context.settings.referencePolicy reference context.imports
    return {
      name
      before
      after := after.erase Keyword.navigate.text
      navigation := taskNavigation after next failureTarget
      referenceId }

end Taskflow.Compile
