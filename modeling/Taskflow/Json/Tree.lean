import Taskflow.Number.Leading

/-!
# JSON trees

What a JSON text denotes. The members of an object keep their order and their repetitions. Part
of a text may be well formed without denoting anything: a number beyond the finite values, a
string with half a surrogate pair, or a container nested too deeply. Such a part is unreadable,
which matters only to those who read it.
-/

namespace Taskflow

/-- What a JSON text denotes. -/
inductive Json
  | null
  | boolean (value : Bool)
  | number (value : Number)
  | text (value : String)
  | array (items : List Json)
  | object (members : List (String × Json))
  /-- A part that is well formed but denotes nothing. -/
  | unreadable

namespace Json

instance : Inhabited Json := ⟨.null⟩

mutual

/-- Whether no part of a tree is unreadable. -/
def isReadable : Json → Bool
  | .unreadable => false
  | .array items => areReadable items
  | .object members => haveReadableValues members
  | _ => true

/-- Whether no part of any item is unreadable. -/
def areReadable : List Json → Bool
  | [] => true
  | item :: rest => isReadable item && areReadable rest

/-- Whether no part of the value of any member is unreadable. -/
def haveReadableValues : List (String × Json) → Bool
  | [] => true
  | (_, value) :: rest => isReadable value && haveReadableValues rest

end

/-- Items are readable if each of them is. -/
theorem areReadable_iff {items : List Json} :
    areReadable items = true ↔ ∀ item ∈ items, item.isReadable = true := by
  induction items with
  | nil => simp [areReadable]
  | cons item rest ih => simp [areReadable, ih]

/-- Members are readable if the value of each is. -/
theorem haveReadableValues_iff {members : List (String × Json)} :
    haveReadableValues members = true ↔ ∀ member ∈ members, member.2.isReadable = true := by
  induction members with
  | nil => simp [haveReadableValues]
  | cons member rest ih =>
    obtain ⟨key, value⟩ := member
    simp [haveReadableValues, ih]

end Json

end Taskflow
