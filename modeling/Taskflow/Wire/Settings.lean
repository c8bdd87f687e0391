import Taskflow.Settings
import Taskflow.SourceFile
import Taskflow.Wire.Field

/-!
# The hand-off form of settings and file kinds

Settings may leave out any field, which then has its default.
-/

namespace Taskflow.Wire

/-- The names of the policies. -/
def policyNames : List String := ["strict", "lenient"]

/-- The fields of settings. -/
def settingsFields : List String :=
  ["reference_policy", "extra_executable_keywords", "extra_task_keywords"]

/-- The hand-off form of a policy. -/
def ofPolicy : ReferencePolicy → Json
  | .strict => .text "strict"
  | .lenient => .text "lenient"

/-- The hand-off form of settings. -/
def ofSettings (settings : Settings) : Json :=
  .object [("reference_policy", ofPolicy settings.referencePolicy),
    ("extra_executable_keywords", .array (settings.extraExecutableKeywords.map Json.text)),
    ("extra_task_keywords", .array (settings.extraTaskKeywords.map Json.text))]

/-- The hand-off form of a file kind. -/
def ofFileKind : FileKind → Json
  | .flow => .text "Flow"
  | .operations => .text "Operations"
  | .other kind => .object [("Other", .text kind)]

/-- Read a policy. -/
def policy? (tree : Json) : Option ReferencePolicy := do
  match ← constantIndex? .inPlace policyNames tree with
  | 0 => some .strict
  | _ => some .lenient

/-- Read a field that may be missing. -/
def fieldOr? {α : Type} (preset : α) (value? : Json → Option α) : Option Json → Option α
  | none => some preset
  | some tree => value? tree

/-- Read settings. -/
def settings? (tree : Json) : Option Settings := do
  match ← optionalFields? settingsFields tree with
  | [policy, executableKeywords, taskKeywords] =>
    let policy ← fieldOr? .strict policy? policy
    let executableKeywords ← fieldOr? [] (listOf? text?) executableKeywords
    let taskKeywords ← fieldOr? [] (listOf? text?) taskKeywords
    return ⟨policy, executableKeywords, taskKeywords⟩
  | _ => none

/-- Read a file kind. -/
def fileKind? : Json → Option FileKind
  | .object [("Other", kind)] => (text? kind).map .other
  | tree => do
    match ← constantIndex? .inPlace ["Flow", "Operations"] tree with
    | 0 => some .flow
    | _ => some .operations

end Taskflow.Wire
