import FilterLang.Filter.Basic

/-!
# Filters as query text

Every filter has one written form.  A joined filter stands in parentheses wherever it is an operand,
so the text does not rely on which connective binds tighter.
-/

namespace FilterLang

/-- One character of a string literal. -/
def escapeLiteral (c : Char) : List Char :=
  match c with
  | '"' => ['\\', '"']
  | '\\' => ['\\', '\\']
  | '\n' => ['\\', 'n']
  | '\r' => ['\\', 'r']
  | '\t' => ['\\', 't']
  | _ => [c]

/-- A literal as it is written in a query.  A fractional number that happens to be whole keeps a
point and a zero, so that it is not taken for a whole number. -/
def Scalar.print : Scalar → String
  | .null => "null"
  | .bool value => if value then "true" else "false"
  | .int value => toString value.toInt
  | .float value => value.literal
  | .str value => String.ofList ('"' :: value.toList.flatMap escapeLiteral ++ ['"'])

/-- A list of literals between brackets. -/
def Scalar.printList (items : List Scalar) : String :=
  "[" ++ ", ".intercalate (items.map Scalar.print) ++ "]"

/-- A value as it is written in a query. -/
def Value.print : Value → String
  | .scalar value => value.print
  | .list items => Scalar.printList items
  | .range lower upper => Scalar.printList [lower, upper]

namespace Filter

/-- A printed filter in the place of an operand. -/
def operandText (filter : Filter) (printed : String) : String :=
  if filter.isLogical then "(" ++ printed ++ ")" else printed

/-- The filter as query text. -/
def print : Filter → String
  | comparison field op value => s!"{field} {op} {value.print}"
  | logical kind left right =>
    s!"{operandText left left.print} {kind} {operandText right right.print}"
  | not child => "not " ++ operandText child child.print

end Filter

end FilterLang
