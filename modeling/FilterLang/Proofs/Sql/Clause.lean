import FilterLang.Proofs.Filter.Meaning
import FilterLang.Target.Sql

/-!
# The grammar of SQL conditions

A `Clause` is a derivation in the grammar

    clause    := "(" clause (" AND " clause)+ ")" | "(" clause (" OR " clause)+ ")"
               | "(NOT " clause ")" | "(" leaf ")"
    leaf      := column " " predicate | "1=1"
    column    := name ("." name)*
    predicate := "IS NULL" | "IS NOT NULL" | comparison " " value | "BETWEEN " value " AND " value
               | "IN (" value (", " value)* ")" | "NOT IN (" value (", " value)* ")"

A name stands between double quotes, and the quotes in it are doubled.  What stands in the places of the
values is left open.  In a text these are the numbers of placeholders, and the clause has the text that
it derives (`Clause.text`).  Once every number is replaced by its parameter (`Clause.fill`), they are
documents.  Either way the clause has a meaning in every logic (`Clause.eval`).

`Clause.ofFilter?` says which clause a filter has: chains of one connective become one group, and every
comparison becomes a leaf.
-/

namespace FilterLang.Sql

/-! ## Derivations -/

/-- A column, given by the names on the way to it. -/
structure Column where
  path : List String
  path_ne_nil : path ≠ []

/-- What is said of a column, with something in the places of the values. -/
inductive Predicate (α : Type) where
  | isNull
  | isNotNull
  | compare (comparison : SqlComparison) (value : α)
  | oneOf (first : α) (rest : List α)
  | noneOf (first : α) (rest : List α)
  | between (lower upper : α)

/-- A condition without connectives. -/
inductive Leaf (α : Type) where
  | on (column : Column) (predicate : Predicate α)
  /-- The condition that always holds. -/
  | always

/-- A derivation of a condition.  A group has at least two operands. -/
inductive Clause (α : Type) where
  | single (leaf : Leaf α)
  | group (kind : Connective) (first second : Clause α) (rest : List (Clause α))
  | not (child : Clause α)

variable {α β : Type}

/-! ## Text -/

/-- A name with its quotes doubled. -/
def doubled (name : List Char) : List Char :=
  name.flatMap fun c => if c = '"' then ['"', '"'] else [c]

/-- The text of a name. -/
def nameText (name : String) : String := "\"" ++ String.ofList (doubled name.toList) ++ "\""

/-- The text of a column. -/
def Column.text (column : Column) : String := ".".intercalate (column.path.map nameText)

/-- The text of a numbered value. -/
def placeholderText (n : Nat) : String := "$" ++ toString n

/-- The text of a comparison. -/
def symbol : SqlComparison → String
  | .equal => "="
  | .notEqual => "<>"
  | .greater => ">"
  | .greaterOrEqual => ">="
  | .less => "<"
  | .lessOrEqual => "<="
  | .like => "LIKE"

/-- The text of a predicate on numbered values. -/
def Predicate.text : Predicate Nat → String
  | isNull => "IS NULL"
  | isNotNull => "IS NOT NULL"
  | compare comparison value => symbol comparison ++ " " ++ placeholderText value
  | oneOf first rest => "IN (" ++ ", ".intercalate ((first :: rest).map placeholderText) ++ ")"
  | noneOf first rest => "NOT IN (" ++ ", ".intercalate ((first :: rest).map placeholderText) ++ ")"
  | between lower upper => "BETWEEN " ++ placeholderText lower ++ " AND " ++ placeholderText upper

/-- The text of a leaf. -/
def Leaf.text : Leaf Nat → String
  | on column predicate => column.text ++ " " ++ predicate.text
  | always => "1=1"

/-- The text between two operands. -/
def joiner : Connective → String
  | .and => " AND "
  | .or => " OR "

mutual

/-- The text that a clause derives. -/
def Clause.text : Clause Nat → String
  | .single leaf => "(" ++ leaf.text ++ ")"
  | .group kind first second rest =>
    "(" ++ first.text ++ joiner kind ++ second.text ++ Clause.tailText kind rest ++ ")"
  | .not child => "(NOT " ++ child.text ++ ")"
termination_by structural clause => clause

/-- The text of further operands, each behind its connective. -/
def Clause.tailText (kind : Connective) : List (Clause Nat) → String
  | [] => ""
  | clause :: rest => joiner kind ++ clause.text ++ Clause.tailText kind rest
termination_by structural clauses => clauses

end

/-! ## Values -/

/-- The values of a predicate from left to right. -/
def Predicate.values : Predicate α → List α
  | isNull | isNotNull => []
  | compare _ value => [value]
  | oneOf first rest | noneOf first rest => first :: rest
  | between lower upper => [lower, upper]

/-- The values of a leaf from left to right. -/
def Leaf.values : Leaf α → List α
  | on _ predicate => predicate.values
  | always => []

mutual

/-- The values of a clause from left to right. -/
def Clause.values : Clause α → List α
  | .single leaf => leaf.values
  | .group _ first second rest => first.values ++ second.values ++ Clause.valuesIn rest
  | .not child => child.values
termination_by structural clause => clause

/-- The values of several clauses from left to right. -/
def Clause.valuesIn : List (Clause α) → List α
  | [] => []
  | clause :: rest => clause.values ++ Clause.valuesIn rest
termination_by structural clauses => clauses

end

/-- A number of consecutive numbers behind another. -/
def numbers (bound count : Nat) : List Nat := (List.range count).map (bound + · + 1)

/-- The predicate with its values numbered. -/
def Predicate.number (bound : Nat) : Predicate α → Predicate Nat
  | isNull => isNull
  | isNotNull => isNotNull
  | compare comparison _ => compare comparison (bound + 1)
  | oneOf _ rest => oneOf (bound + 1) (numbers (bound + 1) rest.length)
  | noneOf _ rest => noneOf (bound + 1) (numbers (bound + 1) rest.length)
  | between _ _ => between (bound + 1) (bound + 2)

/-- The leaf with its values numbered. -/
def Leaf.number (bound : Nat) : Leaf α → Leaf Nat
  | on column predicate => on column (predicate.number bound)
  | always => always

mutual

/-- The clause with its values numbered from left to right, behind a number of earlier ones. -/
def Clause.number (bound : Nat) : Clause α → Clause Nat
  | .single leaf => .single (leaf.number bound)
  | .group kind first second rest =>
    .group kind (first.number bound) (second.number (bound + first.values.length))
      (Clause.numberIn (bound + (first.values ++ second.values).length) rest)
  | .not child => .not (child.number bound)
termination_by structural clause => clause

/-- Several clauses with their values numbered; each goes on where the one before it has ended. -/
def Clause.numberIn (bound : Nat) : List (Clause α) → List (Clause Nat)
  | [] => []
  | clause :: rest => clause.number bound :: Clause.numberIn (bound + clause.values.length) rest
termination_by structural clauses => clauses

end

/-- The predicate with its values replaced, if every one of them can be. -/
def Predicate.replace (f : α → Option β) : Predicate α → Option (Predicate β)
  | isNull => some isNull
  | isNotNull => some isNotNull
  | compare comparison value => do return compare comparison (← f value)
  | oneOf first rest => do return oneOf (← f first) (← rest.mapM f)
  | noneOf first rest => do return noneOf (← f first) (← rest.mapM f)
  | between lower upper => do return between (← f lower) (← f upper)

/-- The leaf with its values replaced. -/
def Leaf.replace (f : α → Option β) : Leaf α → Option (Leaf β)
  | on column predicate => do return on column (← predicate.replace f)
  | always => some always

mutual

/-- The clause with its values replaced. -/
def Clause.replace (f : α → Option β) : Clause α → Option (Clause β)
  | .single leaf => do return .single (← leaf.replace f)
  | .group kind first second rest => do
    return .group kind (← first.replace f) (← second.replace f) (← Clause.replaceIn f rest)
  | .not child => do return .not (← child.replace f)
termination_by structural clause => clause

/-- Several clauses with their values replaced. -/
def Clause.replaceIn (f : α → Option β) : List (Clause α) → Option (List (Clause β))
  | [] => some []
  | clause :: rest => do return (← clause.replace f) :: (← Clause.replaceIn f rest)
termination_by structural clauses => clauses

end

/-- The parameter with a number; numbers start at one. -/
def param? (params : List Json) : Nat → Option Json
  | 0 => none
  | n + 1 => params[n]?

/-- The clause with every number replaced by its parameter. -/
def Clause.fill (params : List Json) (clause : Clause Nat) : Option (Clause Json) :=
  clause.replace (param? params)

/-! ## Meaning -/

section

universe u

variable {Ω : Type u} (logic : Logic Ω) (meaning : Leaf α → Ω)

mutual

/-- The meaning of a clause, from the meanings of its leaves. -/
def Clause.eval : Clause α → Ω
  | .single leaf => meaning leaf
  | .group kind first second rest =>
    Clause.evalTail kind (logic.join kind first.eval second.eval) rest
  | .not child => logic.not child.eval
termination_by structural clause => clause

/-- The meaning of the first operands of a group joined with that of the further ones. -/
def Clause.evalTail (kind : Connective) (front : Ω) : List (Clause α) → Ω
  | [] => front
  | clause :: rest => Clause.evalTail kind (logic.join kind front clause.eval) rest
termination_by structural clauses => clauses

end

end

/-! ## The clause of a filter -/

/-- The column of a field. -/
def Column.ofField (field : String) : Column := ⟨fieldPath field, by simp [fieldPath]⟩

/-- The leaf of a comparison.  There is none if the value is not of a kind that the operator takes, for
a search in a list, and for a list operator without values. -/
def Leaf.ofComparison? (field : String) (op : Operator) (value : Value) : Option (Leaf Json) :=
  let column := Column.ofField field
  match op, value with
  | .between, .range lower upper =>
    match lower.bound?, upper.bound? with
    | some lower, some upper => some (.on column (.between lower.toJson upper.toJson))
    | some lower, none => some (.on column (.compare .greaterOrEqual lower.toJson))
    | none, some upper => some (.on column (.compare .lessOrEqual upper.toJson))
    | none, none => some .always
  | .between, _ | _, .range _ _ => none
  | .eq, .scalar .null => some (.on column .isNull)
  | .ne, .scalar .null => some (.on column .isNotNull)
  | .eq, value => some (.on column (.compare .equal value.toJson))
  | .ne, value => some (.on column (.compare .notEqual value.toJson))
  | .gt, value => some (.on column (.compare .greater value.toJson))
  | .gte, value => some (.on column (.compare .greaterOrEqual value.toJson))
  | .lt, value => some (.on column (.compare .less value.toJson))
  | .lte, value => some (.on column (.compare .lessOrEqual value.toJson))
  | .isIn, .list (first :: rest) =>
    some (.on column (.oneOf first.toJson (rest.map Scalar.toJson)))
  | .notIn, .list (first :: rest) =>
    some (.on column (.noneOf first.toJson (rest.map Scalar.toJson)))
  | .contains, .scalar literal =>
    some (.on column (.compare .like (.str ("%" ++ literal.text ++ "%"))))
  | .startsWith, .scalar literal => some (.on column (.compare .like (.str (literal.text ++ "%"))))
  | .endsWith, .scalar literal => some (.on column (.compare .like (.str ("%" ++ literal.text))))
  | _, _ => none

/-- The chain of one connective that a clause is: its first operand and the others. -/
def Clause.chain (kind : Connective) : Clause α → Clause α × List (Clause α)
  | .group k first second rest =>
    if k = kind then (first, second :: rest) else (.group k first second rest, [])
  | clause => (clause, [])

/-- Two clauses joined; chains of the same connective become one group. -/
def Clause.join (kind : Connective) (left right : Clause α) : Clause α :=
  match left.chain kind, right.chain kind with
  | (first, []), (second, rest) => .group kind first second rest
  | (first, second :: rest), (next, more) => .group kind first second (rest ++ next :: more)

/-- The clause of a filter. -/
def Clause.ofFilter? : Filter → Option (Clause Json)
  | .comparison field op value => do return .single (← Leaf.ofComparison? field op value)
  | .logical kind left right => do return .join kind (← ofFilter? left) (← ofFilter? right)
  | .not child => do return .not (← ofFilter? child)

end FilterLang.Sql
