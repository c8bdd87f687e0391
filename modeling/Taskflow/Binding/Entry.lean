import Taskflow.Binding.Basic
import Taskflow.Document.Lookup
import Taskflow.Document.View

/-!
# Reading the entries of a binding

One entry of a list declares one input, output or result; one entry of a map gives the target
of one result. Every reader takes the key that faults are reported under.
-/

namespace Taskflow

/-- The property of an input that holds its default value. -/
def Input.defaultProperty : String := "default"

/-- The property that says whether an input must be given. -/
def Input.requiredProperty : String := "required"

/-- The property that says whether an input is kept encrypted. -/
def Input.encryptedProperty : String := "encrypted"

/-- The property that says whether the default of an input may be overridden. -/
def Input.overridableProperty : String := "overridable"

/-- All properties of an input. -/
def Input.properties : List String :=
  [defaultProperty, requiredProperty, encryptedProperty, overridableProperty]

/-- The map key of the class of an action. -/
def JavaAction.classProperty : String := "className"

/-- The map key of the method of an action. -/
def JavaAction.methodProperty : String := "methodName"

namespace Entry

/-- The only pair of a map. -/
def onePair (key : String) : Mapping → Except Fault (String × Value)
  | [pair] => .ok pair
  | entries => .error (.invalidEntry key (.notOnePair entries.length))

/-- The text of the value under a name. -/
def readExpression (key name : String) (value : Value) : Except Fault String :=
  match value.scalarText? with
  | some expression => .ok expression
  | none => .error (.invalidEntry key (.notExpression name value.shape))

/-- Refuse properties that an input does not have, the first of them. -/
def checkProperties (key name : String) (properties : Mapping) : Except Fault Unit :=
  match properties.keys.find? fun property => !Input.properties.contains property with
  | some property => .error (.invalidEntry key (.unknownProperty property name))
  | none => .ok ()

/-- The default among the properties of an input; null counts as none. -/
def readDefault (key name : String) (properties : Mapping) : Except Fault (Option String) :=
  match properties.get? Input.defaultProperty with
  | none | some .null => .ok none
  | some value => (readExpression key name value).map some

/-- A boolean property of an input; null counts as not given. -/
def readFlag (key name : String) (properties : Mapping) (property : String) (preset : Bool) :
    Except Fault Bool :=
  match properties.get? property with
  | none | some .null => .ok preset
  | some (.boolean value) => .ok value
  | some other => .error (.invalidEntry key (.notBoolean property name other.shape))

/-- An input with properties. -/
def readProperties (key name : String) (properties : Mapping) : Except Fault Input := do
  checkProperties key name properties
  let expression ← readDefault key name properties
  let required ← readFlag key name properties Input.requiredProperty true
  let encrypted ← readFlag key name properties Input.encryptedProperty false
  let overridable ← readFlag key name properties Input.overridableProperty false
  return ⟨name, expression, required, encrypted, overridable⟩

/-- The input of the given name with what stands beside it: nothing, its properties, or its
default. -/
def readInputValue (key name : String) : Value → Except Fault Input
  | .null => .ok (.named name)
  | .map properties => readProperties key name properties
  | value => do
    let expression ← readExpression key name value
    return { Input.named name with expression := some expression }

/-- Read an input: a name, or one pair of a name and what is said about it. -/
def readInput (key : String) : Value → Except Fault Input
  | .text name => .ok (.named name)
  | .map entries => do
    let (name, value) ← onePair key entries
    readInputValue key name value
  | other => .error (.invalidEntry key (.notInput other.shape))

/-- Read an output: a name that receives the value of the same name, or one pair of a name and
an expression. -/
def readOutput (key : String) : Value → Except Fault Output
  | .text name => .ok ⟨name, name⟩
  | .map entries => do
    let (name, value) ← onePair key entries
    let expression ← readExpression key name value
    return ⟨name, expression⟩
  | other => .error (.invalidEntry key (.notOutput other.shape))

/-- Read a result: a name, or one pair of a name and an expression. -/
def readResult (key : String) : Value → Except Fault ResultBinding
  | .text name => .ok ⟨name, none⟩
  | .map entries => do
    let (name, value) ← onePair key entries
    let expression ← readExpression key name value
    return ⟨name, some expression⟩
  | other => .error (.invalidEntry key (.notResult other.shape))

/-- Read the name of a result. -/
def readResultName (key : String) : Value → Except Fault String
  | .text name => .ok name
  | other => .error (.invalidEntry key (.notResultName other.shape))

/-- Read the target of a result. -/
def readTarget (key : String) : String × Value → Except Fault (String × String)
  | (result, .text target) => .ok (result, target)
  | (result, other) => .error (.invalidEntry key (.notTarget result other.shape))

/-- A property of an action that must have a text which is not blank. -/
def readRequired (key : String) (entries : Mapping) (property : String) : Except Fault String :=
  let given := (entries.get? property).bind Value.scalarText?
  match given.filter fun content => !Text.isBlankText content.toList with
  | some content => .ok content
  | none => .error (.invalidEntry key (.required property))

/-- Read an action: its class first, then its method. Other keys count for nothing. -/
def readJavaAction (key : String) (entries : Mapping) : Except Fault JavaAction := do
  let className ← readRequired key entries JavaAction.classProperty
  let methodName ← readRequired key entries JavaAction.methodProperty
  return ⟨className, methodName⟩

end Entry

end Taskflow
