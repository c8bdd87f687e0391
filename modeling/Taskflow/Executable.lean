import Taskflow.Binding.Basic
import Taskflow.Reference

/-!
# Compiled executables

What a compilation produces: operations, which invoke one action, and flows, which run tasks
and go on by the result of each. Task references stand for the full names of executables.
-/

namespace Taskflow

/-- What operations and flows have in common. -/
structure Signature where
  /-- The namespace of the file; empty if it declares none. -/
  namespaceName : String
  /-- The name of the executable. -/
  name : String
  /-- The declared inputs. -/
  inputs : List Input
  /-- The declared outputs. -/
  outputs : List Output
  /-- The declared results. -/
  results : List ResultBinding
  /-- Further bindings that hold before the executable runs. -/
  before : Bindings
  /-- Further bindings that hold after the executable ran. -/
  after : Bindings
  deriving DecidableEq

/-- One step of a flow. -/
structure Task where
  /-- The name of the task. -/
  name : String
  /-- The bindings that hold before the task runs. -/
  before : Bindings
  /-- The bindings that hold after the task ran. -/
  after : Bindings
  /-- Where the flow goes on, for each result of the task. -/
  navigation : Navigation
  /-- The full name of the invoked executable. -/
  referenceId : String
  deriving DecidableEq

/-- The tasks of a flow: the main tasks in order, then those that handle failures. -/
structure Workflow where
  /-- All tasks. -/
  tasks : List Task
  deriving DecidableEq

/-- The task at which a flow starts. -/
def Workflow.firstTask? (workflow : Workflow) : Option Task := workflow.tasks.head?

/-- The first task of the given name. -/
def Workflow.task? (workflow : Workflow) (name : String) : Option Task :=
  workflow.tasks.find? (·.name == name)

/-- A compiled executable. -/
inductive Executable
  /-- An operation and the bindings of its action. -/
  | operation (signature : Signature) (action : Bindings)
  /-- A flow and its tasks. -/
  | flow (signature : Signature) (workflow : Workflow)
  deriving DecidableEq

namespace Executable

/-- The signature of an executable. -/
def signature : Executable → Signature
  | .operation signature _ => signature
  | .flow signature _ => signature

/-- The name of an executable. -/
def name (executable : Executable) : String := executable.signature.name

/-- The namespace of an executable. -/
def namespaceName (executable : Executable) : String := executable.signature.namespaceName

/-- The full name, to which task references resolve. Without a namespace it is the name. -/
def id (executable : Executable) : String :=
  if executable.namespaceName = "" then executable.name
  else Reference.qualified executable.namespaceName executable.name

/-- The tasks, if the executable is a flow. -/
def workflow? : Executable → Option Workflow
  | .flow _ workflow => some workflow
  | .operation .. => none

/-- The bindings of the action, if the executable is an operation. -/
def action? : Executable → Option Bindings
  | .operation _ action => some action
  | .flow .. => none

end Executable

end Taskflow
