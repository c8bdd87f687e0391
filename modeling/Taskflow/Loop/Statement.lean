import Taskflow.Fault
import Taskflow.Text.Blank

/-!
# Loop statements

A task may run once per element of a list or once per entry of a map. A statement is made by a
builder that refuses a blank expression and blank names of map entries. The main statements
say exactly when a builder succeeds.
-/

namespace Taskflow

/-- The iteration of a task. -/
inductive LoopStatement
  /-- Bind each element of a list to a variable. -/
  | list (varName expression : String) (inParallel : Bool)
  /-- Bind the key and the value of each entry of a map. -/
  | mapFor (keyName valueName expression : String) (inParallel : Bool)
  deriving DecidableEq, Repr

namespace LoopStatement

/-- The collection that the loop runs over. -/
def expression : LoopStatement → String
  | .list _ expression _ => expression
  | .mapFor _ _ expression _ => expression

/-- Whether the iterations may run in parallel. -/
def isParallel : LoopStatement → Bool
  | .list _ _ inParallel => inParallel
  | .mapFor _ _ _ inParallel => inParallel

/-- Whether a text has a character that is not blank. -/
def HasText (text : String) : Prop := Text.isBlankText text.toList = false

instance (text : String) : Decidable (HasText text) :=
  inferInstanceAs (Decidable (Text.isBlankText text.toList = false))

/-- A statement is valid if its expression and the names of map entries have text. -/
def Valid : LoopStatement → Prop
  | .list _ expression _ => HasText expression
  | .mapFor keyName valueName expression _ =>
    HasText expression ∧ HasText keyName ∧ HasText valueName

instance : DecidablePred Valid
  | .list _ expression _ => inferInstanceAs (Decidable (HasText expression))
  | .mapFor keyName valueName expression _ =>
    inferInstanceAs (Decidable (HasText expression ∧ HasText keyName ∧ HasText valueName))

/-- Refuse a blank text with the given fault. -/
def requireText (text : String) (fault : Fault) : Except Fault Unit :=
  if Text.isBlankText text.toList then .error fault else .ok ()

/-- The loop over a list, unless its expression is blank. -/
def overList (varName expression : String) (inParallel : Bool) : Except Fault LoopStatement := do
  requireText expression .emptyLoopExpression
  return .list varName expression inParallel

/-- The loop over a map, unless its expression or one of its names is blank. The expression is
checked first, then the name of the key, then that of the value. -/
def overMap (keyName valueName expression : String) (inParallel : Bool) :
    Except Fault LoopStatement := do
  requireText expression .emptyLoopExpression
  requireText keyName (.blankLoopName .key)
  requireText valueName (.blankLoopName .value)
  return .mapFor keyName valueName expression inParallel

/-- A text with something to read passes. -/
theorem requireText_of_hasText {text : String} (h : HasText text) (fault : Fault) :
    requireText text fault = .ok () := by
  unfold HasText at h
  simp [requireText, h]

/-- A blank text is refused with the given fault. -/
theorem requireText_of_not_hasText {text : String} (h : ¬ HasText text) (fault : Fault) :
    requireText text fault = .error fault := by
  unfold HasText at h
  rw [requireText, if_pos (by simpa using h)]

/-- The builder for lists gives a valid statement or refuses the expression. -/
theorem overList_eq (varName expression : String) (inParallel : Bool) :
    overList varName expression inParallel =
      if HasText expression then .ok (.list varName expression inParallel)
      else .error .emptyLoopExpression := by
  unfold overList
  split
  · next h =>
    rw [requireText_of_hasText h]
    rfl
  · next h =>
    rw [requireText_of_not_hasText h]
    rfl

/-- The builder for maps gives a valid statement or names the first blank part. -/
theorem overMap_eq (keyName valueName expression : String) (inParallel : Bool) :
    overMap keyName valueName expression inParallel =
      if ¬ HasText expression then .error .emptyLoopExpression
      else if ¬ HasText keyName then .error (.blankLoopName .key)
      else if ¬ HasText valueName then .error (.blankLoopName .value)
      else .ok (.mapFor keyName valueName expression inParallel) := by
  unfold overMap
  by_cases he : HasText expression
  · rw [requireText_of_hasText he, if_neg (not_not_intro he)]
    by_cases hk : HasText keyName
    · rw [requireText_of_hasText hk, if_neg (not_not_intro hk)]
      by_cases hv : HasText valueName
      · rw [requireText_of_hasText hv, if_neg (not_not_intro hv)]
        rfl
      · rw [requireText_of_not_hasText hv, if_pos hv]
        rfl
    · rw [requireText_of_not_hasText hk, if_pos hk]
      rfl
  · rw [requireText_of_not_hasText he, if_pos he]
    rfl

end LoopStatement

end Taskflow
