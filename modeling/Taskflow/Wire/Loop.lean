import Taskflow.Loop.Statement
import Taskflow.Wire.Field

/-!
# The hand-off form of loop statements

A statement is a record whose tag says what the loop runs over. Reading goes through the
builders, so a blank part is refused.
-/

namespace Taskflow.Wire

/-- The tag of loop statements and executables. -/
def kindTag : String := "kind"

/-- The kinds of loop statements. -/
def loopKinds : List String := ["list", "map_for"]

/-- The fields of a loop over a list. -/
def listLoopFields : List String := ["var_name", "expression", "parallel"]

/-- The fields of a loop over a map. -/
def mapLoopFields : List String := ["key_name", "value_name", "expression", "parallel"]

/-- The hand-off form of a loop statement. -/
def ofLoop : LoopStatement → Json
  | .list varName expression inParallel =>
    .object [(kindTag, .text "list"), ("var_name", .text varName),
      ("expression", .text expression), ("parallel", .boolean inParallel)]
  | .mapFor keyName valueName expression inParallel =>
    .object [(kindTag, .text "map_for"), ("key_name", .text keyName),
      ("value_name", .text valueName), ("expression", .text expression),
      ("parallel", .boolean inParallel)]

/-- Read a loop over a list. -/
def listLoop? (tree : Json) : Option LoopStatement := do
  match ← fields? listLoopFields tree with
  | [varName, expression, inParallel] =>
    let varName ← varName.bind text?
    let expression ← expression.bind text?
    let inParallel ← inParallel.bind boolean?
    (LoopStatement.overList varName expression inParallel).toOption
  | _ => none

/-- Read a loop over a map. -/
def mapLoop? (tree : Json) : Option LoopStatement := do
  match ← fields? mapLoopFields tree with
  | [keyName, valueName, expression, inParallel] =>
    let keyName ← keyName.bind text?
    let valueName ← valueName.bind text?
    let expression ← expression.bind text?
    let inParallel ← inParallel.bind boolean?
    (LoopStatement.overMap keyName valueName expression inParallel).toOption
  | _ => none

/-- Read a loop statement. -/
def loop? (arrival : Arrival) (tree : Json) : Option LoopStatement := do
  let (tag, rest) ← tagged? kindTag tree
  match ← tagIndex? arrival loopKinds tag with
  | 0 => listLoop? rest
  | _ => mapLoop? rest

end Taskflow.Wire
