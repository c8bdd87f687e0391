import Taskflow.Json.Tree

/-!
# Spots in JSON trees

A spot is the way from the root of a tree to one of its parts, together with all that stands beside
the way. The main statement says that a tree is readable exactly if what stands at a spot is and
all that stands beside it.
-/

namespace Taskflow.Json

/-- The way to a part of a tree. -/
inductive Spot
  /-- The whole tree. -/
  | here
  /-- A spot in an item of an array, between other items. -/
  | item (front : List Json) (inner : Spot) (back : List Json)
  /-- A spot in the value of a member of an object, between other members. -/
  | member (front : List (String × Json)) (name : String) (inner : Spot)
      (back : List (String × Json))

namespace Spot

/-- The tree with the given part at the spot. -/
def fill : Spot → Json → Json
  | here, part => part
  | item front inner back, part => .array (front ++ inner.fill part :: back)
  | member front name inner back, part => .object (front ++ (name, inner.fill part) :: back)

/-- The way on behind the first step. -/
def inside : Spot → Spot
  | here => here
  | item _ inner _ => inner
  | member _ _ inner _ => inner

/-- Whether all that stands beside the way is readable. -/
def isReadableBeside : Spot → Bool
  | here => true
  | item front inner back => areReadable (front ++ back) && inner.isReadableBeside
  | member front _ inner back => haveReadableValues (front ++ back) && inner.isReadableBeside

end Spot

/-- Items are readable if those in front and those behind are. -/
theorem areReadable_append (front back : List Json) :
    areReadable (front ++ back) = (areReadable front && areReadable back) := by
  induction front with
  | nil => rfl
  | cons item rest ih => rw [List.cons_append, areReadable, areReadable, ih, Bool.and_assoc]

/-- Members are readable if those in front and those behind are. -/
theorem haveReadableValues_append (front back : List (String × Json)) :
    haveReadableValues (front ++ back) =
      (haveReadableValues front && haveReadableValues back) := by
  induction front with
  | nil => rfl
  | cons member rest ih =>
    rw [List.cons_append, haveReadableValues, haveReadableValues, ih, Bool.and_assoc]

/-- A tree is readable if what stands at a spot is and all that stands beside it. -/
theorem isReadable_fill (spot : Spot) (part : Json) :
    (spot.fill part).isReadable = (spot.isReadableBeside && part.isReadable) := by
  induction spot with
  | here => rfl
  | item front inner back ih =>
    rw [Spot.fill, isReadable, areReadable_append, areReadable, ih, Spot.isReadableBeside,
      areReadable_append]
    ac_rfl
  | member front name inner back ih =>
    rw [Spot.fill, isReadable, haveReadableValues_append, haveReadableValues, ih,
      Spot.isReadableBeside, haveReadableValues_append]
    ac_rfl

end Taskflow.Json
