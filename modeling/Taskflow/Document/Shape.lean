/-!
# Shapes of document values

Every value of a document has one of six shapes. A keyword accepts a map, a list or a scalar.
-/

namespace Taskflow

/-- What kind of value stands somewhere in a document. -/
inductive Shape
  | map
  | list
  | string
  | number
  | boolean
  | null
  deriving DecidableEq, Repr

/-- The name of a shape in messages. -/
def Shape.name : Shape → String
  | .map => "map"
  | .list => "list"
  | .string => "string"
  | .number => "number"
  | .boolean => "boolean"
  | .null => "null"

/-- What kind of value a place in a document asks for. A scalar is a string, a number or a
boolean. -/
inductive ExpectedShape
  | mapping
  | sequence
  | scalar
  deriving DecidableEq, Repr

/-- The name of an expected shape in messages: a scalar is asked for as a string. -/
def ExpectedShape.name : ExpectedShape → String
  | .mapping => "map"
  | .sequence => "list"
  | .scalar => "string"

/-- Whether a value of the given shape is accepted. -/
def ExpectedShape.accepts : ExpectedShape → Shape → Bool
  | .mapping, .map => true
  | .sequence, .list => true
  | .scalar, .string => true
  | .scalar, .number => true
  | .scalar, .boolean => true
  | _, _ => false

end Taskflow
