import Taskflow.Reference

/-!
# Settings of a compilation

What may be adjusted: how unresolved references are treated, and which further keys documents
may carry.
-/

namespace Taskflow

/-- The settings of a compilation. -/
structure Settings where
  /-- What becomes of a reference that cannot be resolved. -/
  referencePolicy : ReferencePolicy := .strict
  /-- Further keys that an executable may carry. -/
  extraExecutableKeywords : List String := []
  /-- Further keys that a task may carry. -/
  extraTaskKeywords : List String := []
  deriving DecidableEq, Repr

namespace Settings

/-- The settings with another policy. -/
def withPolicy (settings : Settings) (policy : ReferencePolicy) : Settings :=
  { settings with referencePolicy := policy }

/-- The settings with one more key for executables. -/
def withExecutableKeyword (settings : Settings) (keyword : String) : Settings :=
  { settings with extraExecutableKeywords := settings.extraExecutableKeywords ++ [keyword] }

/-- The settings with one more key for tasks. -/
def withTaskKeyword (settings : Settings) (keyword : String) : Settings :=
  { settings with extraTaskKeywords := settings.extraTaskKeywords ++ [keyword] }

end Settings

end Taskflow
