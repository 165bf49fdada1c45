import FilterLang.Target.Basic

/-!
# SQL conditions

A filter becomes a condition for a `WHERE` clause.  Values never appear in the text: each is a
numbered placeholder and a parameter.  Placeholders are numbered from left to right, so the
parameters are the values in the order in which they stand in the condition.
-/

namespace FilterLang

/-- The comparison of a column with a single value. -/
inductive SqlComparison where
  | equal
  | notEqual
  | greater
  | greaterOrEqual
  | less
  | lessOrEqual
  | like
deriving DecidableEq

/-- The symbol of a comparison. -/
def SqlComparison.symbol : SqlComparison → String
  | equal => "="
  | notEqual => "<>"
  | greater => ">"
  | greaterOrEqual => ">="
  | less => "<"
  | lessOrEqual => "<="
  | like => "LIKE"

/-- A condition, with the values still in their places.  Columns are already quoted. -/
inductive SqlCondition where
  | isNull (column : String)
  | isNotNull (column : String)
  | compare (column : String) (comparison : SqlComparison) (value : Json)
  | oneOf (column : String) (values : List Json)
  | noneOf (column : String) (values : List Json)
  | between (column : String) (lower upper : Json)
  /-- The condition that always holds. -/
  | always
  /-- Conditions joined by one connective. -/
  | group (kind : Connective) (operands : List SqlCondition)
  | not (child : SqlCondition)

namespace SqlCondition

/-! ## Conditions of a filter -/

/-- A name between double quotes, with quotes in it doubled. -/
def quoteName (name : String) : String :=
  String.ofList ('"' :: name.toList.flatMap (fun c => if c = '"' then ['"', '"'] else [c]) ++ ['"'])

/-- A field as a column: each part of its path quoted. -/
def quoteField (field : String) : String := ".".intercalate ((fieldPath field).map quoteName)

/-- A range; an open end does not restrict. -/
def ofRange (column : String) (lower upper : Scalar) : SqlCondition :=
  match lower.bound?, upper.bound? with
  | some lower, some upper => .between column lower.toJson upper.toJson
  | some lower, none => .compare column .greaterOrEqual lower.toJson
  | none, some upper => .compare column .lessOrEqual upper.toJson
  | none, none => .always

/-- A comparison.  A list under an operator for single values is one value: an array. -/
def ofComparison (field : String) (op : Operator) (value : Value) :
    Except CompileError SqlCondition := do
  checkShape field op value
  let column := quoteField field
  match op, value with
  | .eq, .scalar .null => return .isNull column
  | .ne, .scalar .null => return .isNotNull column
  | .eq, value => return .compare column .equal value.toJson
  | .ne, value => return .compare column .notEqual value.toJson
  | .gt, value => return .compare column .greater value.toJson
  | .gte, value => return .compare column .greaterOrEqual value.toJson
  | .lt, value => return .compare column .less value.toJson
  | .lte, value => return .compare column .lessOrEqual value.toJson
  | .isIn, .list [] | .notIn, .list [] => throw (.emptyList field op)
  | .isIn, .list items => return .oneOf column (items.map Scalar.toJson)
  | .notIn, .list items => return .noneOf column (items.map Scalar.toJson)
  | .between, .range lower upper => return ofRange column lower upper
  | op, value =>
    let text ← patternText field op value
    return .compare column .like (.str ((op.likePattern? text).getD text))

/-- The operands that a condition brings to a group: those of a group of the same kind, and else the
condition itself. -/
def operands (kind : Connective) (condition : SqlCondition) : List SqlCondition :=
  match condition with
  | .group k inner => if k = kind then inner else [condition]
  | _ => [condition]

/-- The condition of a filter; chains of one connective are a single group. -/
def ofFilter : Filter → Except CompileError SqlCondition
  | .comparison field op value => ofComparison field op value
  | .logical kind left right => do
    return .group kind (operands kind (← ofFilter left) ++ operands kind (← ofFilter right))
  | .not child => do
    return .not (← ofFilter child)

/-! ## Text and parameters -/

mutual

/-- The values of a condition from left to right. -/
def params : SqlCondition → List Json
  | .isNull _ | .isNotNull _ | .always => []
  | .compare _ _ value => [value]
  | .oneOf _ values | .noneOf _ values => values
  | .between _ lower upper => [lower, upper]
  | .group _ operands => paramsList operands
  | .not child => child.params
termination_by structural condition => condition

/-- The values of several conditions from left to right. -/
def paramsList : List SqlCondition → List Json
  | [] => []
  | condition :: rest => condition.params ++ paramsList rest
termination_by structural conditions => conditions

end

/-- The placeholder of a parameter, counted from one. -/
def placeholder (n : Nat) : String := s!"${n}"

/-- Placeholders of parameters one after the other, behind a number of earlier ones. -/
def placeholders (bound count : Nat) : String :=
  ", ".intercalate ((List.range count).map fun i => placeholder (bound + i + 1))

/-- The word between the operands of a group. -/
def joiner : Connective → String
  | .and => " AND "
  | .or => " OR "

mutual

/-- The text of a condition behind a number of earlier parameters.  Every condition stands in
parentheses. -/
def text (bound : Nat) : SqlCondition → String
  | .isNull column => s!"({column} IS NULL)"
  | .isNotNull column => s!"({column} IS NOT NULL)"
  | .compare column comparison _ =>
    s!"({column} {comparison.symbol} {placeholder (bound + 1)})"
  | .oneOf column values => s!"({column} IN ({placeholders bound values.length}))"
  | .noneOf column values => s!"({column} NOT IN ({placeholders bound values.length}))"
  | .between column _ _ =>
    s!"({column} BETWEEN {placeholder (bound + 1)} AND {placeholder (bound + 2)})"
  | .always => "(1=1)"
  | .group kind operands => "(" ++ (joiner kind).intercalate (texts bound operands) ++ ")"
  | .not child => "(NOT " ++ child.text bound ++ ")"
termination_by structural condition => condition

/-- The texts of several conditions; each starts to count where the one before it has ended. -/
def texts (bound : Nat) : List SqlCondition → List String
  | [] => []
  | condition :: rest => condition.text bound :: texts (bound + condition.params.length) rest
termination_by structural conditions => conditions

end

end SqlCondition

/-- The text of a `WHERE` clause and its parameters. -/
structure SqlQuery where
  text : String
  params : List Json

namespace SqlQuery

/-- A filter as a `WHERE` clause. -/
def compile (filter : Filter) : Except CompileError SqlQuery := do
  let condition ← SqlCondition.ofFilter filter
  return ⟨condition.text 0, condition.params⟩

/-- A filter for Drizzle, whose `sql` template takes the same text and parameters. -/
def compileDrizzle (filter : Filter) : Except CompileError SqlQuery := compile filter

/-- The clause as a document. -/
def toJson (query : SqlQuery) : Json :=
  .obj [("text", .str query.text), ("params", .arr query.params)]

end SqlQuery

end FilterLang
