import Taskflow.Compile.Workflow
import Taskflow.SourceFile

/-!
# Compiling executables and files

The body of an executable is checked for keys, then its declarations are read, and then the
tasks of a flow or the action of an operation. A file is compiled executable by executable, and
the first fault ends the compilation.
-/

namespace Taskflow.Compile

/-- The key of the action of an operation. -/
def actionKey : String := "action"

/-- What an action is called where its keys are checked. -/
def actionContext : String := "action data"

/-- The keywords that may stand in an executable. -/
def executableKeywords : List Keyword :=
  Registry.standard.union [.beforeExecutable, .afterExecutable]

/-- The reserved keys of an executable, and those that the settings add. -/
def executableKeys (settings : Settings) : List String :=
  actionKey :: workflowKey :: SourceFile.nameKey :: settings.extraExecutableKeywords

/-- The declared action of an operation, which must not be empty. -/
def declaredAction (name : String) (body : Mapping) : Except Fault Mapping :=
  filledMap actionKey (.noActionData name) body

/-- Compile the action of an operation. -/
def action (name : String) (body : Mapping) : Except Fault Bindings := do
  let declared ← declaredAction name body
  checkKeys declared (Registry.standard.inScope .action) [] actionContext
  readBindings declared (Registry.standard.inScope .action)

/-- The inputs among bindings. -/
def inputsOf (bindings : Bindings) : List Input :=
  match bindings.get? Keyword.inputs.text with
  | some (.inputs inputs) => inputs
  | _ => []

/-- The outputs among bindings. -/
def outputsOf (bindings : Bindings) : List Output :=
  match bindings.get? Keyword.outputs.text with
  | some (.outputs outputs) => outputs
  | _ => []

/-- The results among bindings. -/
def resultsOf (bindings : Bindings) : List ResultBinding :=
  match bindings.get? Keyword.results.text with
  | some (.results results) => results
  | _ => []

/-- The signature of an executable. What has a place of its own in it is taken out of the
bindings. -/
def signature (namespaceName name : String) (body : Mapping) : Except Fault Signature := do
  let before ← readBindings body (Registry.standard.inScope .beforeExecutable)
  let after ← readBindings body (Registry.standard.inScope .afterExecutable)
  return {
    namespaceName
    name
    inputs := inputsOf before
    outputs := outputsOf after
    results := resultsOf after
    before := before.erase Keyword.inputs.text
    after := (after.erase Keyword.outputs.text).erase Keyword.results.text }

/-- Compile what an executable runs: the tasks of a flow or the action of an operation. -/
def content (settings : Settings) (file : SourceFile) (name : String) (body : Mapping)
    (signature : Signature) : Except Fault Executable :=
  match file.kind with
  | .flow => do
    let tasks ← workflow ⟨settings, file.imports⟩ name body
    return .flow signature tasks
  | .operations => do
    let bindings ← action name body
    return .operation signature bindings
  | .other _ => .error (.unsupportedFileKind file.fileName)

/-- Compile one executable of a file. -/
def executable (settings : Settings) (file : SourceFile) (name : String) (body : Mapping) :
    Except Fault Executable :=
  if body.isEmpty then .error (.emptyExecutable name)
  else do
    checkKeys body executableKeywords (executableKeys settings) name
    let declared ← signature file.namespaceName name body
    content settings file name body declared

/-- Compile all executables of a file in order. -/
def file (settings : Settings) (source : SourceFile) : Except Fault (List Executable) :=
  source.executables.mapM fun (name, body) => executable settings source name body

/-- Read a document and compile all that it declares. -/
def document (settings : Settings) (fileName : String) (content : Mapping) :
    Except Fault (List Executable) := do
  let source ← SourceFile.ofDocument fileName content
  file settings source

end Taskflow.Compile
