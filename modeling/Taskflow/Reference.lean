import Taskflow.Dict
import Taskflow.Fault
import Taskflow.Text.Cut

/-!
# References

A task names what it invokes by an import alias, a point and the rest of a name. Resolving
replaces the alias by the namespace imported under it. The main statements say that lenient
resolution never fails and that it agrees with strict resolution wherever that succeeds.
-/

namespace Taskflow

open Text

/-- What becomes of a reference that cannot be resolved. -/
inductive ReferencePolicy
  /-- The reference is a fault. -/
  | strict
  /-- The reference is kept as written. -/
  | lenient
  deriving DecidableEq, Repr

/-- The namespaces imported under their aliases. -/
abbrev Imports := Dict String

namespace Reference

/-- The alias and the rest of a reference: what stands before and after the first point, both
not empty. -/
def split? (reference : String) : Option (String × String) :=
  match cut? ['.'] reference.toList with
  | none => none
  | some (aliasName, name) =>
    if aliasName.isEmpty || name.isEmpty then none
    else some (String.ofList aliasName, String.ofList name)

/-- The name within a namespace. -/
def qualified (namespaceName name : String) : String := namespaceName ++ "." ++ name

/-- The full name that a reference stands for. -/
def resolve (reference : String) (imports : Imports) : Except Fault String :=
  match split? reference with
  | none => .error (.missingAlias reference)
  | some (aliasName, name) =>
    match imports.get? aliasName with
    | none => .error (.unknownAlias aliasName reference)
    | some namespaceName => .ok (qualified namespaceName name)

/-- The full name that a reference stands for under a policy. -/
def resolveWith (policy : ReferencePolicy) (reference : String) (imports : Imports) :
    Except Fault String :=
  match resolve reference imports, policy with
  | .ok id, _ => .ok id
  | .error _, .lenient => .ok reference
  | .error fault, .strict => .error fault

/-- Strict resolution is plain resolution. -/
@[simp] theorem resolveWith_strict (reference : String) (imports : Imports) :
    resolveWith .strict reference imports = resolve reference imports := by
  unfold resolveWith
  cases resolve reference imports <;> rfl

/-- Lenient resolution keeps what cannot be resolved. -/
@[simp] theorem resolveWith_lenient (reference : String) (imports : Imports) :
    resolveWith .lenient reference imports =
      .ok ((resolve reference imports).toOption.getD reference) := by
  unfold resolveWith
  cases resolve reference imports <;> rfl

end Reference

end Taskflow
