import Taskflow.Wire.Executable
import Taskflow.Wire.Settings
import Taskflow.Proofs.Json.Spot

/-!
# The records of the hand-off form

What is handed on consists of records and of values with a tag, nested in one another by way of
lists and dictionaries. This is written down once for all of them: the names that each has, what
stands under these names, and so which record stands at a spot of a tree.
-/

namespace Taskflow.Wire

open Json (Spot)

/-- A record, or a value with a tag. -/
inductive Part
  | settings
  | input
  | output
  | result
  | javaAction
  | loop
  | binding
  | signature
  | task
  | action
  | workflow
  | executable
  deriving DecidableEq

/-- What stands under a name of a record. -/
inductive Content
  /-- Nothing that holds a record. -/
  | plain
  /-- A record. -/
  | one (part : Part)
  /-- A list of records. -/
  | list (part : Part)
  /-- A dictionary of records. -/
  | dict (part : Part)
  deriving DecidableEq

namespace Part

/-- What a record is read as. -/
abbrev Value : Part → Type
  | settings => Settings
  | input => Input
  | output => Output
  | result => ResultBinding
  | javaAction => JavaAction
  | loop => LoopStatement
  | binding => Binding
  | signature => Signature
  | task => Task
  | action => Bindings
  | workflow => Workflow
  | executable => Executable

/-- Read a record. -/
def read? (arrival : Arrival) : (part : Part) → Json → Option part.Value
  | settings => settings?
  | input => input?
  | output => output?
  | result => result?
  | javaAction => javaAction?
  | loop => loop? arrival
  | binding => binding? arrival
  | signature => signature?
  | task => task?
  | action => action?
  | workflow => workflow?
  | executable => executable?

/-- The records that texts are read as. -/
def roots : List Part := [settings, loop, binding, executable]

/-- The records that have no tag and all of whose fields are asked for. -/
def records : List Part :=
  [input, output, result, javaAction, signature, task, action, workflow]

/-- Whether a record is a binding or may hold some. Inside of another it has always been set aside,
since it stands there only behind the tag of an executable. -/
def mayHoldBindings : Part → Bool
  | binding | signature | task | action | workflow => true
  | _ => false

/-- What the values of bindings hold, by their types. -/
def bindingContents : List Content :=
  [.list input, .list output, .list result, .one javaAction, .plain, .one loop, .plain, .plain]

/-- Names under which no records stand. -/
def plainNames (names : List String) : List (String × Content) :=
  names.map fun name => (name, .plain)

/-- The names of a record in order, the tag among them, and what stands under them. They may depend
on what the tag says. -/
def names : Part → Nat → List (String × Content)
  | settings, _ => plainNames settingsFields
  | input, _ => plainNames inputFields
  | output, _ | result, _ => plainNames outputFields
  | javaAction, _ => plainNames javaActionFields
  | loop, 0 => plainNames (kindTag :: listLoopFields)
  | loop, _ => plainNames (kindTag :: mapLoopFields)
  | binding, type => [(typeTag, .plain), (valueTag, bindingContents.getD type .plain)]
  | signature, _ =>
    [("namespace", .plain), ("name", .plain), ("inputs", .list input), ("outputs", .list output),
      ("results", .list result), ("pre_executable_data", .dict binding),
      ("post_executable_data", .dict binding)]
  | task, _ =>
    [("name", .plain), ("pre_task_data", .dict binding), ("post_task_data", .dict binding),
      ("navigation", .plain), ("reference_id", .plain)]
  | action, _ => [("action_data", .dict binding)]
  | workflow, _ => [("tasks", .list task)]
  | executable, 0 => [(kindTag, .plain), ("signature", .one signature), ("action", .one action)]
  | executable, _ =>
    [(kindTag, .plain), ("signature", .one signature), ("workflow", .one workflow)]

/-- The names that a record asks for, the tag among them. -/
def knownNames (part : Part) (kind : Nat) : List String := (part.names kind).map Prod.fst

/-- What the only member of the given name says, as a place in a list. -/
def sayOf? (members : List (String × Json)) (name : String) (place? : Json → Option Nat) :
    Option Nat :=
  match occurrences members name with
  | [tag] => place? tag
  | _ => none

/-- What the tag of an object says, if the record has a tag. -/
def kindOf? (part : Part) (members : List (String × Json)) : Option Nat :=
  match part with
  | loop => sayOf? members kindTag (tagIndex? .setAside loopKinds)
  | executable => sayOf? members kindTag (tagIndex? .inPlace executableKinds)
  | binding => sayOf? members typeTag (constantIndex? .setAside bindingTypes)
  | _ => some 0

/-- What the tag of an array says, if the record has a tag. It comes first. -/
def arrayKindOf? (part : Part) (items : List Json) : Option Nat :=
  match part with
  | loop => items.head?.bind (tagIndex? .setAside loopKinds)
  | executable => items.head?.bind (tagIndex? .inPlace executableKinds)
  | binding => items.head?.bind (tagIndex? .setAside bindingTypes)
  | _ => some 0

end Part

namespace Content

/-- What stands under a name is read as this. -/
abbrev Value : Content → Type
  | plain => Unit
  | one part => part.Value
  | list part => List part.Value
  | dict part => Dict part.Value

/-- The records that stand under a name. -/
def part? : Content → Option Part
  | plain => none
  | one part | list part | dict part => some part

/-- Read what stands under a name. What holds no record may be anything. -/
def read? (arrival : Arrival) : (content : Content) → Json → Option content.Value
  | plain => fun _ => some ()
  | one part => part.read? arrival
  | list part => listOf? (part.read? arrival)
  | dict part => dictOf? (part.read? arrival)

/-- The record that stands at a spot of what is read as the given content. -/
def partAt? : Content → Spot → Option Part
  | one part, .here => some part
  | one part, .member front name inner back => do
    let kind ← part.kindOf? (front ++ back)
    let content ← (part.names kind).lookup name
    content.partAt? inner
  | one part, .item front inner _ => do
    let kind ← part.arrayKindOf? front
    let (_, content) ← (part.names kind)[front.length]?
    content.partAt? inner
  | list part, .item _ inner _ => (one part).partAt? inner
  | dict part, .member _ _ inner _ => (one part).partAt? inner
  | _, _ => none

end Content

end Taskflow.Wire
