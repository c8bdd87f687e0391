import Taskflow.Document.Shape
import Taskflow.Number.Basic

/-!
# Document values

A document is a tree of scalars, lists and maps. The entries of a map are ordered, and a
scalar counts only through its text. A map is built from pairs of which a later one replaces
an earlier one with the same key.
-/

namespace Taskflow

/-- A value of a document. -/
inductive Value
  | null
  | boolean (value : Bool)
  | number (value : Number)
  | text (value : String)
  | list (items : List Value)
  | map (entries : List (String × Value))

instance : Inhabited Value := ⟨.null⟩

/-- The entries of a map in the order of the document. -/
abbrev Mapping := List (String × Value)

/-- The shape of a value. -/
def Value.shape : Value → Shape
  | .null => .null
  | .boolean _ => .boolean
  | .number _ => .number
  | .text _ => .string
  | .list _ => .list
  | .map _ => .map

/-- The text of a scalar; null, lists and maps have none. -/
def Value.scalarText? : Value → Option String
  | .text value => some value
  | .number value => some value.text
  | .boolean true => some "true"
  | .boolean false => some "false"
  | _ => none

namespace Mapping

/-- The keys in order. -/
def keys (entries : Mapping) : List String := entries.map Prod.fst

/-- Set the value under a key: in place if the key is there, else at the end. -/
def put (key : String) (value : Value) : Mapping → Mapping
  | [] => [(key, value)]
  | (other, previous) :: rest =>
    if other = key then (key, value) :: rest else (other, previous) :: put key value rest

/-- The map that results from setting each pair in turn. A repeated key keeps the place of its
first occurrence and the value of its last. -/
def ofPairs (pairs : List (String × Value)) : Mapping :=
  pairs.foldl (fun entries pair => put pair.1 pair.2 entries) []

end Mapping

end Taskflow
