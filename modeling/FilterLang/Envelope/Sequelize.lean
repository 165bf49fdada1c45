import FilterLang.Envelope.Basic

/-!
# Sequelize symbols

The envelopes of a Sequelize filter are opened by replacing each with an object whose key is the
symbol of the operator.
-/

namespace FilterLang.Sequelize

/-- The symbols of operators, by name; the first entry for a name counts. -/
structure SymbolTable where
  symbols : List (String × String)

namespace SymbolTable

/-- The table without symbols. -/
def empty : SymbolTable := ⟨[]⟩

/-- The table with a symbol for a name, in place of an earlier one. -/
def insert (table : SymbolTable) (name symbol : String) : SymbolTable :=
  ⟨(name, symbol) :: table.symbols⟩

/-- The names that a filter may need. -/
def names : List String :=
  ["and", "or", "not", "ne", "gt", "gte", "lt", "lte", "in", "notIn", "like", "between"]

/-- The table that puts a dollar sign in front of each name. -/
def aliases : SymbolTable :=
  names.foldl (fun table name => table.insert name ("$" ++ name)) empty

/-- A value under the symbol of an operator. -/
def keyed (table : SymbolTable) (name : String) (value : Json) : Except EnvelopeError Json :=
  match table.symbols.lookup name with
  | some symbol => .ok (.single symbol value)
  | none => .error (.missingOperator .sequelize name)

end SymbolTable

/-- An error in the filter. -/
def invalid {α : Type} (cause : EnvelopeCause) : Except EnvelopeError α :=
  .error (.invalid .sequelize cause)

section

variable (table : SymbolTable)

/-- An operator and its value, opened; nothing is left of a range that is open on both sides. -/
def openOperator (op : Operator) (value : Json) : Except EnvelopeError (Option Json) :=
  match op with
  | .eq => .ok (some value)
  | .contains | .startsWith | .endsWith => do
    let text := searchedText value
    return some (← table.keyed "like" (.str ((op.likePattern? text).getD text)))
  | .between =>
    match rangeBounds? value with
    | none => invalid (.notARange value)
    | some (some lower, some upper) => do
      return some (← table.keyed "between" (.arr [lower, upper]))
    | some (some lower, none) => do return some (← table.keyed "gte" lower)
    | some (none, some upper) => do return some (← table.keyed "lte" upper)
    | some (none, none) => .ok none
  | op => do return some (← table.keyed op.name value)

/-- A condition on a field; one that is no envelope stays as it is. -/
def openCondition (condition : Json) : Except EnvelopeError (Option Json) :=
  match condition.get? operatorMarker with
  | none => .ok (some condition)
  | some marker =>
    match marker.asStr?.bind Operator.ofName? with
    | none => invalid (.unknownOperator marker.text)
    | some op => openOperator table op ((condition.get? "value").getD .null)

/-- The conditions of an object; a field without a condition is left out. -/
def openFields : Members → Except EnvelopeError Members
  | [] => .ok []
  | (field, condition) :: rest => do
    let opened ← openCondition table condition
    let more ← openFields rest
    return match opened with
      | some condition => (field, condition) :: more
      | none => more

mutual

/-- A filter with its envelopes opened. -/
def resolve : Json → Except EnvelopeError Json
  | .obj members =>
    match members.lookup logicalMarker with
    | none => do return .obj (← openFields table members)
    | some (.str "and") => do table.keyed "and" (.arr (← resolveConditions "and" members))
    | some (.str "or") => do table.keyed "or" (.arr (← resolveConditions "or" members))
    | some (.str "not") => do table.keyed "not" (← resolveCondition members)
    | some kind => invalid (.unknownLogicalKind kind)
  | document => invalid (.expectedObject document)
termination_by structural document => document

/-- The opened filters of a group, which are the items under one of the members. -/
def resolveConditions (kind : String) : List (String × Json) → Except EnvelopeError (List Json)
  | [] => invalid (.groupWithoutConditions kind)
  | (key, value) :: rest =>
    if key = "conditions" then
      match value with
      | .arr items => resolveAll items
      | _ => invalid (.groupWithoutConditions kind)
    else resolveConditions kind rest
termination_by structural members => members

/-- The opened filter of a negation, which is one of the members. -/
def resolveCondition : List (String × Json) → Except EnvelopeError Json
  | [] => invalid .notWithoutCondition
  | (key, value) :: rest => if key = "condition" then resolve value else resolveCondition rest
termination_by structural members => members

/-- Several filters opened, from left to right. -/
def resolveAll : List Json → Except EnvelopeError (List Json)
  | [] => .ok []
  | filter :: rest => do return (← resolve filter) :: (← resolveAll rest)
termination_by structural filters => filters

end

end

end FilterLang.Sequelize
