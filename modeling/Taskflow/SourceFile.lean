import Taskflow.Document.Lookup
import Taskflow.Document.View
import Taskflow.Reference
import Taskflow.Text.LowerCase

/-!
# Source files

A source file declares a namespace, imports and executables, each a name with a body that is
not read yet. A document declares either one flow or a list of operations.
-/

namespace Taskflow

open Text

/-- What a source file declares. -/
inductive FileKind
  /-- One flow. -/
  | flow
  /-- A list of operations. -/
  | operations
  /-- Something that cannot be compiled. -/
  | other (kind : String)
  deriving DecidableEq, Repr

namespace FileKind

/-- The word for a file of one flow. -/
def flowName : String := "flow"

/-- The word for a file of operations. -/
def operationsName : String := "operations"

/-- The kind that a word stands for, in any case of ASCII letters. -/
def ofKeyword (keyword : String) : FileKind :=
  if caselessEq keyword flowName then .flow
  else if caselessEq keyword operationsName then .operations
  else .other keyword

/-- The word for a kind. -/
def name : FileKind → String
  | .flow => flowName
  | .operations => operationsName
  | .other kind => kind

end FileKind

/-- A source file whose executables have not been compiled. -/
structure SourceFile where
  /-- The name of the file. -/
  fileName : String
  /-- The namespace of its executables; empty if none is declared. -/
  namespaceName : String
  /-- The imported namespaces under their aliases. -/
  imports : Imports
  /-- What the file declares. -/
  kind : FileKind
  /-- The names and bodies of its executables in order of declaration. -/
  executables : List (String × Mapping)

namespace SourceFile

/-- A file that imports and declares nothing yet. -/
def empty (fileName namespaceName : String) (kind : FileKind) : SourceFile :=
  ⟨fileName, namespaceName, .empty, kind, []⟩

/-- The file with one more import; it replaces an import under the same alias. -/
def withImport (file : SourceFile) (aliasName namespaceName : String) : SourceFile :=
  { file with imports := file.imports.insert aliasName namespaceName }

/-- The file with one more executable at the end. -/
def withExecutable (file : SourceFile) (name : String) (body : Mapping) : SourceFile :=
  { file with executables := file.executables ++ [(name, body)] }

/-- The key of the namespace of a document. -/
def namespaceKey : String := "namespace"

/-- The key of the imports of a document. -/
def importsKey : String := "imports"

/-- The key of the name of a flow. -/
def nameKey : String := "name"

/-- The namespace of a document; if it is absent or null, the empty one. -/
def readNamespace (document : Mapping) : Except Fault String :=
  match document.get? namespaceKey with
  | none | some .null => .ok ""
  | some value => value.asText namespaceKey

/-- One import: an alias and the namespace it stands for. -/
def readImport : String × Value → Except Fault (String × String)
  | (aliasName, .text namespaceName) => .ok (aliasName, namespaceName)
  | (aliasName, other) => .error (.invalidEntry importsKey (.notNamespace aliasName other.shape))

/-- The imports of a document, which may be absent or null. -/
def readImports (document : Mapping) : Except Fault Imports :=
  match document.get? importsKey with
  | none | some .null => .ok .empty
  | some value => do
    let entries ← value.asMap importsKey
    let imports ← entries.mapM readImport
    return .ofList imports

/-- The flow of a document under its name, or else under the name of the file. -/
def readFlow (fileName : String) (value : Value) : Except Fault (List (String × Mapping)) := do
  let body ← value.asBody FileKind.flowName
  let name := ((body.get? nameKey).bind Value.scalarText?).getD fileName
  return [(name, body)]

/-- One operation: a name and the body under it. -/
def readBody : String × Value → Except Fault (String × Mapping)
  | (name, value) => do
    let body ← value.asBody name
    return (name, body)

/-- One entry of the list of operations: names with their bodies. -/
def readOperationEntry : Value → Except Fault (List (String × Mapping))
  | .map entries => entries.mapM readBody
  | other => .error (.invalidEntry FileKind.operationsName (.notBody other.shape))

/-- The operations of a document in order. -/
def readOperations (value : Value) : Except Fault (List (String × Mapping)) := do
  let items ← value.asList FileKind.operationsName
  let groups ← items.mapM readOperationEntry
  return groups.flatten

/-- What a document declares: its flow if it has one, or else its operations. -/
def readDeclarations (fileName : String) (document : Mapping) :
    Except Fault (FileKind × List (String × Mapping)) :=
  match document.get? FileKind.flowName with
  | some value => do
    let executables ← readFlow fileName value
    return (.flow, executables)
  | none =>
    match document.get? FileKind.operationsName with
    | some value => do
      let executables ← readOperations value
      return (.operations, executables)
    | none => .error (.unsupportedFileKind fileName)

/-- Read a document. Its namespace is checked first, then its imports, then what it declares. -/
def ofDocument (fileName : String) (document : Mapping) : Except Fault SourceFile := do
  let namespaceName ← readNamespace document
  let imports ← readImports document
  let (kind, executables) ← readDeclarations fileName document
  return ⟨fileName, namespaceName, imports, kind, executables⟩

end SourceFile

end Taskflow
