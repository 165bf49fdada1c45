import FilterLang.Json.Basic
import FilterLang.Operator

/-!
# Values in a comparison

The right-hand side of a comparison is a single literal, a list of literals, or a range.  Whole
numbers and fractional ones are kept apart, so that a target receives the kind of number that was
written.
-/

namespace FilterLang

/-- A single literal. -/
inductive Scalar where
  | null
  | bool (value : Bool)
  | int (value : Int64)
  | float (value : Binary64)
  | str (value : String)
deriving DecidableEq

namespace Scalar

/-- The literal is `null`. -/
def isNull : Scalar → Bool
  | null => true
  | _ => false

/-- The text of a string literal. -/
def asStr? : Scalar → Option String
  | str value => some value
  | _ => none

/-- The number that a numeric literal is, or is nearest to. -/
def asFloat? : Scalar → Option Binary64
  | int value => some (.ofInt value.toInt)
  | float value => some value
  | _ => none

/-- The literal as running text, for use inside a pattern. -/
def text : Scalar → String
  | null => "null"
  | bool value => if value then "true" else "false"
  | int value => toString value.toInt
  | float value => value.text
  | str value => value

/-- The kind of literal, in words. -/
def typeName : Scalar → String
  | null => "null"
  | bool _ => "boolean"
  | int _ => "integer"
  | float _ => "float"
  | str _ => "string"

/-- The literal as a document.  A number that no document can hold becomes `null`. -/
def toJson : Scalar → Json
  | null => .null
  | bool value => .bool value
  | int value => .int value.toInt
  | float value => if value.isFinite then .float value else .null
  | str value => .str value

/-- The whole number as a literal, if it fits into a signed word. -/
def ofInt? (n : Int) : Option Scalar :=
  if Int64.minValue.toInt ≤ n ∧ n ≤ Int64.maxValue.toInt then some (.int (.ofInt n)) else none

/-- The literal that a document stands for; an array or an object stands for none.  A whole number
beyond the range of signed words is kept as the nearest double. -/
def ofJson? : Json → Option Scalar
  | .null => some .null
  | .bool value => some (.bool value)
  | .int value => some ((ofInt? value).getD (.float (.ofInt value)))
  | .float value => some (.float value)
  | .str value => some (.str value)
  | .arr _ | .obj _ => none

/-- Equality of literals of one kind; fractional numbers are compared as numbers. -/
def same : Scalar → Scalar → Bool
  | float x, float y => x.same y
  | x, y => x == y

end Scalar

/-- The value side of a comparison. -/
inductive Value where
  | scalar (value : Scalar)
  | list (items : List Scalar)
  /-- A range with its two ends; `null` leaves an end open. -/
  | range (lower upper : Scalar)
deriving DecidableEq

namespace Value

/-- The kind of value, in words. -/
def kindName : Value → String
  | scalar _ => "scalar"
  | list _ => "list"
  | range _ _ => "range"

/-- The value as a document; a range becomes an array of its two ends. -/
def toJson : Value → Json
  | scalar value => value.toJson
  | list items => .arr (items.map Scalar.toJson)
  | range lower upper => .arr [lower.toJson, upper.toJson]

/-- Equality of values, literal by literal. -/
def same : Value → Value → Bool
  | scalar x, scalar y => x.same y
  | list xs, list ys => xs.length == ys.length && (xs.zip ys).all fun (x, y) => x.same y
  | range a b, range c d => a.same c && b.same d
  | _, _ => false

end Value

/-- The operator can be compared with a value of this kind: a list operator with a list, a range
operator with a range, and any other with everything but a range. -/
def Operator.accepts : Operator → Value → Bool
  | .isIn, .list _ | .notIn, .list _ => true
  | .isIn, _ | .notIn, _ => false
  | .between, .range _ _ => true
  | .between, _ => false
  | _, .range _ _ => false
  | _, _ => true

/-- The ends of a range, without the open ones. -/
def Scalar.bound? (s : Scalar) : Option Scalar := if s.isNull then none else some s

end FilterLang
