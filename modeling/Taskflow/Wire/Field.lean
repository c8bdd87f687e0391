import Taskflow.Dict
import Taskflow.Json.Tree

/-!
# Fields of the hand-off form

Compiled executables are handed on as JSON. A record is written as an object of its fields; it
is read from an object, in which other members are ignored and no field may be repeated, or from
an array of its fields in order.
-/

namespace Taskflow.Wire

/-- How a value reaches its reader: in its place in the text, or set aside until a tag that
stands elsewhere was known. What was set aside has been read as a whole. -/
inductive Arrival
  | inPlace
  | setAside
  deriving DecidableEq, Repr

/-- The text that a tree is. -/
def text? : Json → Option String
  | .text value => some value
  | _ => none

/-- The boolean that a tree is. -/
def boolean? : Json → Option Bool
  | .boolean value => some value
  | _ => none

/-- The text that a tree is, or the absence of one that null stands for. -/
def optionalText? : Json → Option (Option String)
  | .null => some none
  | .text value => some (some value)
  | _ => none

/-- The list that an array is. -/
def listOf? {α : Type} (item? : Json → Option α) : Json → Option (List α)
  | .array items => items.mapM item?
  | _ => none

/-- The dictionary that an object is. A repeated key keeps its last value, but every value must
be readable. -/
def dictOf? {α : Type} (value? : Json → Option α) : Json → Option (Dict α)
  | .object members => do
    let entries ← members.mapM fun (key, value) => (value? value).map fun value => (key, value)
    return .ofList entries
  | _ => none

/-- The members of the given name. -/
def occurrences (members : List (String × Json)) (name : String) : List Json :=
  (members.filter (·.1 == name)).map Prod.snd

/-- The value of a field among members, if it is there. A repeated field is refused. -/
def field? (members : List (String × Json)) (name : String) : Option (Option Json) :=
  match occurrences members name with
  | [] => some none
  | [value] => some (some value)
  | _ => none

/-- The fields of a record in the given order, each if it is there. In an array all must be
there. -/
def fields? (names : List String) : Json → Option (List (Option Json))
  | .object members => names.mapM (field? members)
  | .array items => if items.length = names.length then some (items.map some) else none
  | _ => none

/-- The fields of a record of which any may be missing, in an array those at the end. -/
def optionalFields? (names : List String) : Json → Option (List (Option Json))
  | .array items =>
    if items.length ≤ names.length then
      some (items.map some ++ List.replicate (names.length - items.length) none)
    else none
  | tree => fields? names tree

/-- The tag of a tagged record, and the rest of the record. In an array the tag comes first. The
rest is set aside until the tag is known, so all of it must be readable. -/
def tagged? (tagName : String) : Json → Option (Json × Json)
  | .object members =>
    match occurrences members tagName with
    | [tag] =>
      let rest := Json.object (members.filter (·.1 != tagName))
      if rest.isReadable then some (tag, rest) else none
    | _ => none
  | .array (tag :: items) =>
    let rest := Json.array items
    if rest.isReadable then some (tag, rest) else none
  | _ => none

/-- The place of a tag among the given names. Once set aside, the place itself counts too. -/
def tagIndex? (arrival : Arrival) (names : List String) : Json → Option Nat
  | .text name => names.findIdx? (· == name)
  | .number (.int place) =>
    if arrival = .setAside ∧ 0 ≤ place ∧ place < names.length then some place.toNat else none
  | _ => none

/-- The place of a constant among the given names: the name itself, or an object that has null
under the name. Once set aside, an empty object counts as null. -/
def constantIndex? (arrival : Arrival) (names : List String) : Json → Option Nat
  | .text name => names.findIdx? (· == name)
  | .object [(name, .null)] => names.findIdx? (· == name)
  | .object [(name, .object [])] =>
    if arrival = .setAside then names.findIdx? (· == name) else none
  | _ => none

/-- Which of the members of the given name has that name does not depend on members of other
names. -/
theorem occurrences_append_of_ne {members : List (String × Json)} {name other : String}
    (h : other ≠ name) (value : Json) (more : List (String × Json)) :
    occurrences (members ++ (other, value) :: more) name = occurrences (members ++ more) name := by
  simp [occurrences, h]

end Taskflow.Wire
