import Taskflow.Binding.Entry
import Taskflow.Keyword.Basic
import Taskflow.Loop.Clause

/-!
# Converting the value under a keyword

Each keyword reads a value of its own shape into a binding. A missing value and null count as
absent: lists of declarations are then empty, and all other keywords bind nothing. The main
statement says that a value of the wrong shape is refused by every keyword.
-/

namespace Taskflow.Keyword

/-- What a keyword binds when its value is absent. -/
def absent : Keyword → Option Binding
  | .inputs => some (.inputs [])
  | .outputs => some (.outputs [])
  | .results => some (.results [])
  | _ => none

/-- The arguments of an invocation, a list of inputs reported under the reference. Null counts
as no arguments. -/
def readArguments (reference : String) : Value → Except Fault (List Input)
  | .null => .ok []
  | value => do
    let items ← value.asList reference
    items.mapM (Entry.readInput reference)

/-- The arguments under the only reference of an invocation. A map that does not hold exactly
one reference binds nothing, so that the task can be refused by name. -/
def readInvocation : Mapping → Except Fault (Option Binding)
  | [(reference, value)] => do
    let arguments ← readArguments reference value
    return some (.inputs arguments)
  | _ => .ok none

/-- The loop that a clause stands for, if any. -/
def readLoop (clause : String) (inParallel : Bool) : Except Fault (Option Binding) := do
  let statement ← LoopClause.read clause inParallel
  return statement.map .loop

/-- A list of outputs. -/
def readOutputs (key : String) (value : Value) : Except Fault (Option Binding) := do
  let items ← value.asList key
  let outputs ← items.mapM (Entry.readOutput key)
  return some (.outputs outputs)

/-- Read the value under a keyword. -/
def readValue (keyword : Keyword) (key : String) (value : Value) :
    Except Fault (Option Binding) := do
  match keyword with
  | .inputs =>
    let items ← value.asList key
    let inputs ← items.mapM (Entry.readInput key)
    return some (.inputs inputs)
  | .outputs | .publish | .aggregate => readOutputs key value
  | .results =>
    let items ← value.asList key
    let results ← items.mapM (Entry.readResult key)
    return some (.results results)
  | .javaAction =>
    let entries ← value.asMap key
    let action ← Entry.readJavaAction key entries
    return some (.javaAction action)
  | .pythonAction =>
    let code ← value.asText key
    return some (.script code)
  | .invoke =>
    let entries ← value.asMap key
    readInvocation entries
  | .loop =>
    let clause ← value.asText key
    readLoop clause false
  | .parallelLoop =>
    let clause ← value.asText key
    readLoop clause true
  | .navigate =>
    let entries ← value.asMap key
    let targets ← entries.mapM (Entry.readTarget key)
    return some (.navigation (Dict.ofList targets))
  | .breakOn =>
    let items ← value.asList key
    let names ← items.mapM (Entry.readResultName key)
    return some (.names names)

/-- Read what stands under a keyword, if anything. -/
def convert (keyword : Keyword) (key : String) : Option Value → Except Fault (Option Binding)
  | none | some .null => .ok keyword.absent
  | some value => keyword.readValue key value

private theorem eq_error_of_map_eq_error {α β : Type} {run : Except Fault α} {f : α → β}
    {fault : Fault} (h : run.map f = .error fault) : run = .error fault := by
  cases run with
  | error other => simpa [Except.map] using h
  | ok result => cases h

/-- A value of another shape than the keyword expects is refused by the shape check. -/
theorem readValue_of_check_error {keyword : Keyword} {key : String} {value : Value}
    {fault : Fault} (h : value.check keyword.expects key = .error fault) :
    keyword.readValue key value = .error fault := by
  cases keyword with
  | javaAction | invoke | navigate =>
    rw [expects, Value.check_mapping] at h
    rw [readValue, eq_error_of_map_eq_error h]
    rfl
  | pythonAction | loop | parallelLoop =>
    rw [expects, Value.check_scalar] at h
    rw [readValue, eq_error_of_map_eq_error h]
    rfl
  | inputs | results | breakOn =>
    rw [expects, Value.check_sequence] at h
    rw [readValue, eq_error_of_map_eq_error h]
    rfl
  | outputs | publish | aggregate =>
    rw [expects, Value.check_sequence] at h
    rw [readValue, readOutputs, eq_error_of_map_eq_error h]
    rfl

end Taskflow.Keyword
