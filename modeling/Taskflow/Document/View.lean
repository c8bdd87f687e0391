import Taskflow.Document.Value
import Taskflow.Fault

/-!
# Reading a value as a map, a list or a text

Each view accepts the values of one shape and refuses all others. A list in place of a map and a
map in place of a list have faults of their own. The main statements say that a view succeeds
exactly on the shape that it expects, with the fault of the shape check otherwise.
-/

namespace Taskflow.Value

/-- Refuse a value under a key unless it has the expected shape. -/
def check (value : Value) (expected : ExpectedShape) (key : String) : Except Fault Unit :=
  if expected.accepts value.shape then .ok ()
  else
    match expected, value.shape with
    | .sequence, .map => .error (.expectedList key)
    | .mapping, .list => .error (.expectedMap key)
    | _, found => .error (.shapeMismatch key expected found)

/-- The entries of a map. -/
def asMap (key : String) : Value → Except Fault Mapping
  | .map entries => .ok entries
  | .list _ => .error (.expectedMap key)
  | other => .error (.shapeMismatch key .mapping other.shape)

/-- The items of a list. -/
def asList (key : String) : Value → Except Fault (List Value)
  | .list items => .ok items
  | .map _ => .error (.expectedList key)
  | other => .error (.shapeMismatch key .sequence other.shape)

/-- The text of a scalar. -/
def asText (key : String) (value : Value) : Except Fault String :=
  match value.scalarText? with
  | some content => .ok content
  | none => .error (.shapeMismatch key .scalar value.shape)

/-- The entries of a map that may be left out: null counts as the empty map. -/
def asBody (key : String) : Value → Except Fault Mapping
  | .null => .ok []
  | value => value.asMap key

/-- A value is read as a map exactly if the shape check for maps accepts it. -/
theorem check_mapping (value : Value) (key : String) :
    value.check .mapping key = (value.asMap key).map fun _ => () := by
  cases value <;> rfl

/-- A value is read as a list exactly if the shape check for lists accepts it. -/
theorem check_sequence (value : Value) (key : String) :
    value.check .sequence key = (value.asList key).map fun _ => () := by
  cases value <;> rfl

/-- A value is read as a text exactly if the shape check for scalars accepts it. -/
theorem check_scalar (value : Value) (key : String) :
    value.check .scalar key = (value.asText key).map fun _ => () := by
  cases value with
  | boolean b => cases b <;> rfl
  | _ => rfl

/-- Items are read from the list that holds them. -/
theorem asList_eq_ok_iff {value : Value} {key : String} {items : List Value} :
    value.asList key = .ok items ↔ value = .list items := by
  cases value <;> simp [asList]

/-- Entries are read from the map that holds them. -/
theorem asMap_eq_ok_iff {value : Value} {key : String} {entries : Mapping} :
    value.asMap key = .ok entries ↔ value = .map entries := by
  cases value <;> simp [asMap]

/-- A text is read from exactly the scalars that have it. -/
theorem asText_eq_ok_iff {value : Value} {key content : String} :
    value.asText key = .ok content ↔ value.scalarText? = some content := by
  unfold asText
  cases value.scalarText? <;> simp

/-- A value of another shape than is expected fails the shape check. -/
theorem exists_check_eq_error {value : Value} {expected : ExpectedShape} {key : String}
    (h : expected.accepts value.shape = false) :
    ∃ fault, value.check expected key = .error fault := by
  unfold check
  rw [if_neg (by simp [h])]
  split <;> exact ⟨_, rfl⟩

/-- A body is read from the map that holds it, and the empty one also from null. -/
theorem asBody_eq_ok_iff {value : Value} {key : String} {body : Mapping} :
    value.asBody key = .ok body ↔ value = .map body ∨ value = .null ∧ body = [] := by
  cases value <;> simp [asBody, asMap, eq_comm]

end Taskflow.Value
